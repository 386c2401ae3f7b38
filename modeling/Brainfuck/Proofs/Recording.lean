import Brainfuck.Proofs.Parsing
import Brainfuck.Source.Bytes

/-!
# What a token stream records

A token is recorded once, when it is scanned, which is when it is first shown. So the log is ahead
of the tokens that were taken by the one in sight and by nothing else. The end of the source records
the failure that ended it, if one did.
-/

namespace Brainfuck

open Source

/-! ## How sources end -/

section Endings

variable {σ : Type} [Source σ]

/-- What is recorded when the source is asked up to its end. -/
inductive Source.EndsWith : σ → List Event → Prop
  | ended {s : σ} : (supply s).1 = .ended → EndsWith s []
  | failed {s : σ} {e : IoError} : (supply s).1 = .failed e →
      EndsWith s [.readingFailed (position s) e]
  | char {s : σ} {c : Char} {ending : List Event} : (supply s).1 = .char c →
      EndsWith (supply s).2 ending → EndsWith s ending

end Endings

theorem TextSource.endsWith (s : TextSource) : Source.EndsWith s [] := by
  rcases s with ⟨chars, n⟩
  induction chars generalizing n with
  | nil => exact .ended rfl
  | cons c chars ih => exact .char rfl (ih (n + 1))

/-- The failure that ends what a script delivers. -/
def failing? : List ReadAnswer → Option IoError
  | [] => none
  | .byte _ :: script => failing? script
  | .ended :: _ => none
  | .failed e :: script => if e.isInterruption then failing? script else some e

def ReadAnswer.failingThen? (rest : List ReadAnswer) : ReadAnswer → Option IoError
  | byte _ => failing? rest
  | ended => none
  | failed e => some e

theorem failing?_eq (script : List ReadAnswer) :
    failing? script = (settleRead script).answer.failingThen? (settleRead script).rest := by
  induction script with
  | nil => rfl
  | cons a script ih =>
    cases h : a.isInterruption with
    | true =>
      rw [settleRead, settle_of_interruption h]
      refine Eq.trans ?_ ih
      cases a <;> simp_all [ReadAnswer.isInterruption, failing?]
    | false =>
      rw [settleRead, settle_of_settled h]
      cases a <;> simp_all [ReadAnswer.isInterruption, failing?, ReadAnswer.failingThen?]

theorem ByteSource.endsWith (s : ByteSource) (h : s.exhausted = false) :
    Source.EndsWith s ((failing? s.script).toList.map
      (.readingFailed (s.position + (delivered s.script).length))) := by
  have hdelivered := delivered_eq s.script
  have hfailing := failing?_eq s.script
  have hsupply : Source.supply s = s.supply := rfl
  simp only [supply, h, Bool.false_eq_true, if_false] at hsupply
  cases ha : (settleRead s.script).answer with
  | byte b =>
    rw [ha] at hsupply hfailing hdelivered
    obtain ⟨next, hnext, hscript, hposition, hexhausted⟩ : ∃ next : ByteSource,
        Source.supply s = (.char (Char.ofUInt8 b), next) ∧
          next.script = (settleRead s.script).rest ∧ next.position = s.position + 1 ∧
          next.exhausted = false :=
      ⟨_, hsupply, rfl, rfl, rfl⟩
    have hlength : (delivered s.script).length = (delivered next.script).length + 1 := by
      simp [hdelivered, hscript, ReadAnswer.deliveredThen]
    -- One byte fewer is left from one position further on, so the end is where it was.
    have hrest := next.endsWith hexhausted
    rw [hposition, Nat.add_assoc, Nat.add_comm 1, ← hlength, hscript] at hrest
    rw [hfailing]
    exact .char (by rw [hnext]) (by rwa [hnext])
  | ended =>
    rw [ha] at hsupply hfailing
    rw [hfailing]
    exact .ended (by rw [hsupply])
  | failed e =>
    rw [ha] at hsupply hfailing hdelivered
    rw [hfailing, hdelivered]
    exact .failed (by rw [hsupply])
termination_by (delivered s.script).length

/-- What is recorded at the end of what a script delivers. -/
def failureEvents (script : List ReadAnswer) : List Event :=
  (failing? script).toList.map (.readingFailed (delivered script).length)

theorem ByteSource.endsWith_ofScript (script : List ReadAnswer) :
    Source.EndsWith (ofScript script) (failureEvents script) := by
  have h := (ofScript script).endsWith rfl
  rwa [show (ofScript script).position = 0 from rfl, Nat.zero_add] at h

/-! ## Lexers -/

def Token.scanned (t : Token) : Event := .scannedToken t.kind t.span

/-- What is recorded when the next token is shown. -/
def Placed.recorded (ending : List Event) : List Placed → List Event
  | [] => ending
  | p :: _ => [p.token.scanned]

namespace Lexer

variable {σ : Type} [Source σ] {l : Lexer σ} {ending : List Event}

theorem log_pull_of_char {c : Char} (h : l.pull.1.char? = some c) : l.pull.2.log = l.log := by
  rw [pull_fst] at h
  unfold pull
  simp only
  split
  · simp_all [Supply.char?]
  · rfl
  · rfl

theorem endsWith_pull_of_char {c : Char} (h : l.pull.1.char? = some c)
    (hl : EndsWith l.source ending) : EndsWith l.pull.2.source ending := by
  rw [pull_fst] at h
  rw [source_pull]
  cases hl with
  | ended he => simp [he, Supply.char?] at h
  | failed he => simp [he, Supply.char?] at h
  | char hc hrest => exact hrest

theorem log_pull_of_end (h : l.pull.1.char? = none) (hl : EndsWith l.source ending) :
    l.pull.2.log.toList = l.log.toList ++ ending := by
  have hposition := position_pull_of_end h
  rw [pull_fst] at h
  rw [source_pull] at hposition
  unfold pull
  cases hl with
  | ended he => simp [he]
  | failed he => simp [he, record, hposition]
  | char hc => simp [hc, Supply.char?] at h

theorem log_next (hl : EndsWith l.source ending) :
    l.next.2.log.toList = l.log.toList ++ Placed.recorded ending l.pending ∧
      (l.pending ≠ [] → EndsWith l.next.2.source ending) := by
  fun_induction next l with
  | case1 l asked h =>
    rw [pending_of_end h, Placed.recorded]
    exact ⟨log_pull_of_end h hl, by simp⟩
  | case2 l asked c h hs this ih =>
    have hnext := ih (endsWith_pull_of_char h hl)
    rwa [log_pull_of_char h, pending_pull_of_comment h hs] at hnext
  | case3 l asked c h s hs token =>
    rw [pending_of_symbol h hs, Placed.recorded, ← Placed.ofSymbol_eq_token s
      (position_pull_pos h) (position_pull_of_char h)]
    refine ⟨?_, fun _ => endsWith_pull_of_char h hl⟩
    rw [record, Array.toList_push, log_pull_of_char h]
    rfl

end Lexer

/-! ## Token streams -/

namespace TokenStream

variable {σ : Type}

theorem log_record (ts : TokenStream σ) (e : Event) :
    (ts.record e).lexer.log.toList = ts.lexer.log.toList ++ [e] :=
  Array.toList_push ..

variable [Source σ]

/-- The events in `made` are all that was recorded before the token in sight. -/
structure Records (ts : TokenStream σ) (ps : List Placed) (finish : Nat)
    (ending made : List Event) : Prop extends ts.Holds ps finish where
  log_eq : ts.lexer.log.toList =
    made ++ if ts.stash.isSome then Placed.recorded ending ps else []
  endsWith : ts.stash = none ∨ ps ≠ [] → EndsWith ts.lexer.source ending

variable {ts : TokenStream σ} {p : Placed} {ps : List Placed} {finish : Nat}
  {ending made : List Event}

theorem Records.lookahead (h : ts.Records ps finish ending made) :
    ts.lookahead.2.Records ps finish ending made := by
  have hholds := h.toHolds.lookahead
  rcases ts with ⟨lexer, _ | token⟩
  · have hlexer : lexer.log.toList = made := by simpa using h.log_eq
    have hpending : lexer.pending = ps := h.pending_eq
    obtain ⟨hlog, hends⟩ := lexer.log_next (h.endsWith (.inl rfl))
    refine ⟨hholds, ?_, ?_⟩
    · simp [TokenStream.lookahead, hlog, hlexer, hpending]
    · simpa [TokenStream.lookahead, hpending] using hends
  · exact h

theorem Records.next (h : ts.Records (p :: ps) finish ending made) :
    ts.next.2.Records ps finish ending (made ++ [p.token.scanned]) := by
  have hholds := h.toHolds.next
  rcases ts with ⟨lexer, _ | token⟩
  · have hlexer : lexer.log.toList = made := by simpa using h.log_eq
    have hpending : lexer.pending = p :: ps := h.pending_eq
    obtain ⟨hlog, hends⟩ := lexer.log_next (h.endsWith (.inl rfl))
    refine ⟨hholds, ?_, fun _ => hends (by simp [hpending])⟩
    simp [TokenStream.next, hlog, hlexer, hpending, Placed.recorded]
  · refine ⟨hholds, ?_, fun _ => h.endsWith (by simp)⟩
    simpa [TokenStream.next, Placed.recorded] using h.log_eq

theorem stash_next (ts : TokenStream σ) : ts.next.2.stash = none := by
  rcases ts with ⟨lexer, _ | token⟩ <;> rfl

theorem stash_lookahead (ts : TokenStream σ) : ts.lookahead.2.stash = some ts.lookahead.1 := by
  rcases ts with ⟨lexer, _ | token⟩ <;> rfl

theorem Records.record (h : ts.Records ps finish ending made) (hs : ts.stash = none) {e : Event}
    (he : ∀ kind span, e ≠ .scannedToken kind span) :
    (ts.record e).Records ps finish ending (made ++ [e]) := by
  have hstash : (ts.record e).stash = none := hs
  refine ⟨h.toHolds.record he, ?_, h.endsWith⟩
  rw [log_record, h.log_eq, hs, hstash]
  simp

theorem Records.log_lookahead (h : ts.Records ps finish ending made) :
    ts.lookahead.2.lexer.log.toList = made ++ Placed.recorded ending ps := by
  rw [h.lookahead.log_eq, stash_lookahead]
  rfl

theorem records_ofSource {source : σ} (h : EndsWith source ending) :
    (ofSource source).Records (Placed.scan (position source) (rest source))
      (position source + (rest source).length) ending [] :=
  ⟨holds_ofSource source, rfl, fun _ => h⟩

end TokenStream

end Brainfuck
