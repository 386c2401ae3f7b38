import Brainfuck.Proofs.Placed
import Brainfuck.Proofs.Requests
import Brainfuck.Source.Bytes

/-!
# Sources with the same text left

Lexers, token streams and parsers ask a source for its next character and for its position, and for
nothing else. Over two sources that have the same text left they give the same answers, whatever the
sources are made of.
-/

namespace Brainfuck

open Source

variable {σ τ : Type} [Source σ] [Source τ]

/-! ## Lexers -/

namespace Lexer

/-- The sources have the same text left and have supplied as much. The logs may differ, since only
one of the sources may have met a failure. -/
structure Alike (l : Lexer σ) (m : Lexer τ) : Prop where
  rest_eq : rest l.source = rest m.source
  position_eq : position l.source = position m.source
  pulls_eq : l.pulls = m.pulls

variable {l : Lexer σ} {m : Lexer τ}

theorem pulls_pull (l : Lexer σ) : l.pull.2.pulls = l.pulls + 1 := by
  simp only [pull]
  split <;> rfl

theorem Alike.record (h : l.Alike m) (e e' : Event) : (l.record e).Alike (m.record e') :=
  ⟨h.rest_eq, h.position_eq, h.pulls_eq⟩

theorem Alike.char?_pull (h : l.Alike m) : l.pull.1.char? = m.pull.1.char? := by
  rw [pull_fst, pull_fst, char?_supply, char?_supply, h.rest_eq]

theorem Alike.pull (h : l.Alike m) : l.pull.2.Alike m.pull.2 := by
  refine ⟨?_, ?_, by rw [pulls_pull, pulls_pull, h.pulls_eq]⟩
  · rw [source_pull, source_pull, rest_supply, rest_supply, h.rest_eq]
  · have hchar := h.char?_pull
    cases hc : l.pull.1.char? with
    | none =>
      rw [hc] at hchar
      rw [position_pull_of_end hc, position_pull_of_end hchar.symm, h.position_eq]
    | some c =>
      rw [hc] at hchar
      rw [position_pull_of_char hc, position_pull_of_char hchar.symm, h.position_eq]

theorem Alike.next (h : l.Alike m) : l.next.1 = m.next.1 ∧ l.next.2.Alike m.next.2 := by
  fun_induction Lexer.next l generalizing m
  case case1 l asked hc =>
    have hm : m.pull.1.char? = none := h.char?_pull ▸ hc
    rw [next_of_end hm]
    exact ⟨congrArg Token.endOfFile h.pull.position_eq, h.pull⟩
  case case2 l asked c hc hs this ih =>
    have hm : m.pull.1.char? = some c := h.char?_pull ▸ hc
    rw [next_of_comment hm hs]
    exact ih h.pull
  case case3 l asked c hc s hs token =>
    have hm : m.pull.1.char? = some c := h.char?_pull ▸ hc
    rw [next_of_symbol hm hs]
    refine ⟨?_, h.pull.record _ _⟩
    simp only [token, asked, h.pull.position_eq]

theorem Alike.collect (h : l.Alike m) :
    l.collect.1 = m.collect.1 ∧ l.collect.2.Alike m.collect.2 := by
  fun_induction Lexer.collect l generalizing m
  case case1 l token scanned hnext ended =>
    obtain ⟨hfst, hafter⟩ := h.next
    rw [hnext] at hfst hafter
    rw [collect_of_end (hfst ▸ ended)]
    exact ⟨rfl, hafter⟩
  case case2 l token scanned hnext ended hlt more ih =>
    obtain ⟨hfst, hafter⟩ := h.next
    rw [hnext] at hfst hafter
    obtain ⟨hmore, hlast⟩ := ih hafter
    rw [Bool.not_eq_true, show token = m.next.1 from hfst] at ended
    rw [collect_of_symbol ended]
    exact ⟨List.cons_eq_cons.2 ⟨hfst, hmore⟩, hlast⟩

theorem Alike.answer (h : l.Alike m) (r : Request) :
    (l.answer r).1 = (m.answer r).1 ∧ (l.answer r).2.Alike (m.answer r).2 := by
  cases r with
  | next => exact ⟨congrArg Answer.token h.next.1, h.next.2⟩
  | collect => exact ⟨congrArg Answer.tokens h.collect.1, h.collect.2⟩

end Lexer

/-! ## Token streams -/

namespace TokenStream

structure Alike (ts : TokenStream σ) (us : TokenStream τ) : Prop where
  lexer : ts.lexer.Alike us.lexer
  stash_eq : ts.stash = us.stash

structure SameResult {α : Type} (a : α × TokenStream σ) (b : α × TokenStream τ) : Prop where
  fst_eq : a.1 = b.1
  alike : a.2.Alike b.2

theorem SameResult.of_eq {α : Type} {a : α} {after : TokenStream σ} {result : α × TokenStream σ}
    {other : α × TokenStream τ} (h : SameResult result other) (heq : result = (a, after)) :
    ∃ after', other = (a, after') ∧ after.Alike after' := by
  subst heq
  exact ⟨other.2, Prod.ext h.fst_eq.symm rfl, h.alike⟩

variable {ts : TokenStream σ} {us : TokenStream τ}

theorem Alike.record (h : ts.Alike us) (e e' : Event) : (ts.record e).Alike (us.record e') :=
  ⟨h.lexer.record e e', h.stash_eq⟩

theorem Alike.lookahead (h : ts.Alike us) : SameResult ts.lookahead us.lookahead := by
  obtain ⟨lexer, stash⟩ := ts
  obtain ⟨lexer', stash'⟩ := us
  obtain ⟨hlexer, rfl : stash = stash'⟩ := h
  obtain ⟨hfst, hafter⟩ := hlexer.next
  cases stash with
  | none => exact ⟨hfst, hafter, congrArg some hfst⟩
  | some token => exact ⟨rfl, hlexer, rfl⟩

theorem Alike.next (h : ts.Alike us) : SameResult ts.next us.next := by
  obtain ⟨lexer, stash⟩ := ts
  obtain ⟨lexer', stash'⟩ := us
  obtain ⟨hlexer, rfl : stash = stash'⟩ := h
  obtain ⟨hfst, hafter⟩ := hlexer.next
  cases stash with
  | none => exact ⟨hfst, hafter, rfl⟩
  | some token => exact ⟨rfl, hlexer, rfl⟩

theorem Alike.kind_eq (h : ts.Alike us) : us.lookahead.1.kind = ts.lookahead.1.kind := by
  rw [h.lookahead.fst_eq]

theorem Alike.kind_ne {k : TokenKind} (h : ts.Alike us) (hk : ts.lookahead.1.kind ≠ k) :
    us.lookahead.1.kind ≠ k := by
  rwa [h.kind_eq]

theorem Alike.isEnd_eq (h : ts.Alike us) : us.lookahead.1.isEnd = ts.lookahead.1.isEnd := by
  rw [h.lookahead.fst_eq]

/-! ## Parses -/

theorem Alike.takeRun (h : ts.Alike us) (o : Operator) (count : Nat) :
    SameResult (ts.takeRun o count) (us.takeRun o count) := by
  fun_induction TokenStream.takeRun o count ts generalizing us
  case case1 count ts seen hk hlt ih =>
    rw [takeRun_of_operator (h.kind_eq.trans hk)]
    simp only [seen, next_lookahead] at ih ⊢
    exact ih h.next.alike
  case case2 count ts seen hk =>
    rw [takeRun_of_other (h.kind_ne hk)]
    exact ⟨rfl, h.lookahead.alike⟩

theorem Alike.parseSingle (h : ts.Alike us) : SameResult ts.parseSingle us.parseSingle := by
  unfold TokenStream.parseSingle
  simp only [← h.next.fst_eq]
  split
  · exact ⟨rfl, h.next.alike⟩
  · exact ⟨rfl, h.next.alike⟩
  · rename_i o _
    have hrun := h.next.alike.takeRun o 1
    exact ⟨by rw [hrun.fst_eq], hrun.alike⟩
  · exact ⟨rfl, h.next.alike⟩

theorem Alike.parseBody (h : ts.Alike us) (inner : OpenLoop) (outer : List OpenLoop) :
    SameResult (ts.parseBody inner outer) (us.parseBody inner outer) := by
  -- The induction follows the parse of the one stream, and the other shows the same tokens.
  fun_induction TokenStream.parseBody inner outer ts generalizing us
  case case1 inner ts seen hk hlt left =>
    rw [parseBody_of_close_last (h.kind_eq.trans hk)]
    refine ⟨rfl, ?_⟩
    simp only [left, seen, next_lookahead]
    exact h.next.alike.record _ _
  case case2 inner ts seen hk hlt left around outer ih =>
    rw [parseBody_of_close (h.kind_eq.trans hk)]
    refine ih ?_
    simp only [left, seen, next_lookahead]
    exact h.next.alike.record _ _
  case case3 inner outer ts seen hk =>
    rw [parseBody_of_end (h.kind_eq.trans hk), ← h.lookahead.fst_eq]
    exact ⟨rfl, h.lookahead.alike⟩
  case case4 inner outer ts seen hk hlt ih =>
    rw [parseBody_of_open (h.kind_eq.trans hk), ← h.lookahead.fst_eq]
    refine ih ?_
    simp only [seen, next_lookahead]
    exact h.next.alike.record _ _
  case case5 inner outer ts seen s after hs hlt hle hr he hl ih =>
    obtain ⟨after', hs', hafter⟩ := h.lookahead.alike.parseSingle.of_eq hs
    rw [parseBody_of_other (h.kind_ne hr) (h.kind_ne he) (h.kind_ne hl), hs']
    exact ih hafter
  case case6 inner outer ts seen e after hs hr he hl =>
    obtain ⟨after', hs', hafter⟩ := h.lookahead.alike.parseSingle.of_eq hs
    rw [parseBody_of_other (h.kind_ne hr) (h.kind_ne he) (h.kind_ne hl), hs']
    exact ⟨rfl, hafter⟩

theorem Alike.parseOpened (h : ts.Alike us) (ht : ts.lookahead.1.kind = .symbol .leftBracket)
    (hu : us.lookahead.1.kind = .symbol .leftBracket) :
    SameResult (ts.parseOpened ht) (us.parseOpened hu) := by
  unfold TokenStream.parseOpened
  simp only [h.next.fst_eq]
  exact (h.next.alike.record _ _).parseBody _ _

theorem Alike.parseLoop (h : ts.Alike us) : SameResult ts.parseLoop us.parseLoop := by
  have hseen := h.lookahead
  unfold TokenStream.parseLoop
  simp only
  by_cases hk : ts.lookahead.1.kind = .symbol .leftBracket
  · have hparsed := hseen.alike.parseOpened (by rwa [lookahead_lookahead])
      (by rwa [lookahead_lookahead, ← hseen.fst_eq])
    rw [dif_pos hk, dif_pos (h.kind_eq.trans hk)]
    exact ⟨congrArg (Except.mapError LoopError.body) hparsed.fst_eq, hparsed.alike⟩
  · rw [dif_neg hk, dif_neg (h.kind_ne hk)]
    exact ⟨by rw [hseen.fst_eq], hseen.alike.next.alike⟩

theorem Alike.parseStatement (h : ts.Alike us) : SameResult ts.parseStatement us.parseStatement := by
  have hseen := h.lookahead
  unfold TokenStream.parseStatement
  simp only
  by_cases hk : ts.lookahead.1.kind = .symbol .leftBracket
  · rw [dif_pos hk, dif_pos (h.kind_eq.trans hk)]
    exact hseen.alike.parseOpened _ _
  · rw [dif_neg hk, dif_neg (h.kind_ne hk)]
    exact hseen.alike.parseSingle

theorem Alike.parseStatements (h : ts.Alike us) (done : List Statement) :
    SameResult (ts.parseStatements done) (us.parseStatements done) := by
  fun_induction TokenStream.parseStatements done ts generalizing us
  case case1 done ts seen he =>
    rw [parseStatements_of_end (h.isEnd_eq.trans he)]
    exact ⟨rfl, h.lookahead.alike⟩
  case case2 done ts seen he s after hs hlt ih =>
    obtain ⟨after', hs', hafter⟩ := h.lookahead.alike.parseStatement.of_eq hs
    rw [parseStatements_of_more (h.isEnd_eq.trans (Bool.eq_false_iff.2 he)), hs']
    exact ih hafter
  case case3 done ts seen he e after hs =>
    obtain ⟨after', hs', hafter⟩ := h.lookahead.alike.parseStatement.of_eq hs
    rw [parseStatements_of_more (h.isEnd_eq.trans (Bool.eq_false_iff.2 he)), hs']
    exact ⟨rfl, hafter⟩

theorem Alike.parseProgram (h : ts.Alike us) : SameResult ts.parseProgram us.parseProgram := by
  unfold TokenStream.parseProgram
  split
  · rename_i p after hp
    obtain ⟨after', hp', hafter⟩ := (h.parseStatements []).of_eq hp
    rw [hp']
    exact ⟨rfl, hafter.record _ _⟩
  · rename_i e after he
    obtain ⟨after', he', hafter⟩ := (h.parseStatements []).of_eq he
    rw [he']
    exact ⟨rfl, hafter⟩

/-! ## Any sequence of requests -/

theorem Alike.answer (h : ts.Alike us) (r : Request) : SameResult (ts.answer r) (us.answer r) := by
  rcases r with (_ | _) | _ | _ | _
  · exact ⟨congrArg Answer.token h.lookahead.fst_eq, h.lookahead.alike⟩
  · exact ⟨congrArg Answer.token h.next.fst_eq, h.next.alike⟩
  · exact ⟨congrArg Answer.single h.parseSingle.fst_eq, h.parseSingle.alike⟩
  · exact ⟨congrArg Answer.loop h.parseLoop.fst_eq, h.parseLoop.alike⟩
  · exact ⟨congrArg Answer.program h.parseProgram.fst_eq, h.parseProgram.alike⟩

theorem Alike.answerReader (h : ts.Alike us) (r : ReaderRequest) :
    SameResult (ts.answerReader r) (us.answerReader r) := by
  cases r with
  | lexer r => exact ⟨(h.lexer.answer r).1, (h.lexer.answer r).2, rfl⟩
  | stream r => exact h.answer r
  | intoLexer => exact ⟨rfl, h.lexer, rfl⟩

def supplied (ts : TokenStream σ) : Nat × Nat := (ts.lexer.pulls, position ts.lexer.source)

theorem Alike.trace_eq (h : ts.Alike us) (requests : List ReaderRequest) :
    trace TokenStream.answerReader supplied ts requests =
      trace TokenStream.answerReader supplied us requests := by
  refine trace_eq_trace (R := fun ts us => ts.Alike us) (fun ts us r h => ?_) (fun ts us h => ?_) h
    requests
  · exact ⟨(h.answerReader r).fst_eq, (h.answerReader r).alike⟩
  · rw [supplied, supplied, h.lexer.pulls_eq, h.lexer.position_eq]

end TokenStream

/-! ## Bytes and text -/

/-- The text whose characters have the numbers of the bytes. -/
def textOfBytes (bytes : List UInt8) : String := String.ofList (bytes.map Char.ofUInt8)

theorem alike_bytes_text (script : List ReadAnswer) :
    (TokenStream.ofSource (ByteSource.ofScript script)).Alike
      (TokenStream.ofSource (TextSource.ofText (textOfBytes (delivered script)))) :=
  ⟨⟨String.toList_ofList.symm, rfl, rfl⟩, rfl⟩

/-- A channel answers as the text of the bytes that it delivers. -/
theorem trace_bytes_eq_trace_text (script : List ReadAnswer) (requests : List ReaderRequest) :
    trace TokenStream.answerReader TokenStream.supplied
        (.ofSource (ByteSource.ofScript script)) requests =
      trace TokenStream.answerReader TokenStream.supplied
        (.ofSource (TextSource.ofText (textOfBytes (delivered script)))) requests :=
  (alike_bytes_text script).trace_eq requests

end Brainfuck
