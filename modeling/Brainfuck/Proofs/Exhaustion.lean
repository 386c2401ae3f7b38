import Brainfuck.Proofs.Calls
import Brainfuck.Proofs.Pulling
import Brainfuck.Proofs.Recording

/-!
# Reading to the end

A parse that succeeds has asked its source at its end. A byte channel that was read to its end gives
an account of all its answers: the last one ended the source, and those before it were bytes or
interruptions.
-/

namespace Brainfuck

open Source

/-! ## Sources that were asked at their end -/

section Ends

variable {σ : Type} [Source σ] {P : σ → Prop}

theorem Lexer.next_isEnd_imp (hend : ∀ s : σ, (supply s).1.char? = none → P (supply s).2)
    {l : Lexer σ} (h : l.next.1.isEnd = true) : P l.next.2.source := by
  fun_induction next l with
  | case1 l asked hc =>
    rw [pull_fst] at hc
    rw [source_pull]
    exact hend _ hc
  | case2 l asked c hc hs this ih => exact ih h
  | case3 l asked c hc s hs token => contradiction

namespace TokenStream

theorem Later.of_stash_isEnd (hend : ∀ s : σ, (supply s).1.char? = none → P (supply s).2)
    {s : σ} {ts : TokenStream σ} (h : (ofSource s).Later ts) {t : Token} (ht : ts.stash = some t)
    (hisEnd : t.isEnd = true) : P ts.lexer.source := by
  induction h generalizing t with
  | now => contradiction
  | @lookahead us _ ih =>
    rcases us with ⟨lexer, _ | token⟩
    · cases ht
      exact Lexer.next_isEnd_imp hend hisEnd
    · exact ih ht hisEnd
  | @next us _ ih =>
    rw [stash_next] at ht
    contradiction
  | record e _ ih => exact ih ht hisEnd

theorem stash_of_parseStatements {done : List Statement} {ts after : TokenStream σ} {p : Program}
    (h : ts.parseStatements done = (.ok p, after)) :
    ∃ t, after.stash = some t ∧ t.isEnd = true := by
  fun_induction parseStatements done ts with
  | case1 done ts seen he =>
    cases h
    exact ⟨_, ts.stash_lookahead, he⟩
  | case2 done ts seen he s after' hs hlt ih => exact ih h
  | case3 done ts seen he e after' hs => cases h

/-- A parse that succeeds has asked its source at its end. -/
theorem of_parseProgram_eq_ok (hend : ∀ s : σ, (supply s).1.char? = none → P (supply s).2)
    {s : σ} {after : TokenStream σ} {p : Program}
    (h : (ofSource s).parseProgram = (.ok p, after)) : P after.lexer.source := by
  have hlater := later_parseProgram (ofSource s)
  rw [h] at hlater
  unfold parseProgram at h
  split at h
  · rename_i q before hq
    cases h
    obtain ⟨t, ht, hisEnd⟩ := stash_of_parseStatements hq
    exact hlater.of_stash_isEnd hend ht hisEnd
  · cases h

end TokenStream

end Ends

/-! ## The answers of a channel -/

namespace ReadAnswer

def byte? : ReadAnswer → Option UInt8
  | byte b => some b
  | ended | failed _ => none

/-- The answer leaves the channel open. -/
inductive GoesOn : ReadAnswer → Prop
  | byte (b : UInt8) : GoesOn (.byte b)
  | interruption {e : IoError} : e.isInterruption = true → GoesOn (.failed e)

theorem goesOn_of_isInterruption {a : ReadAnswer} (h : a.isInterruption = true) : a.GoesOn := by
  rcases a with b | _ | e
  · contradiction
  · contradiction
  · exact .interruption h

end ReadAnswer

/-- The bytes among the answers. -/
def bytesOf (answers : List ReadAnswer) : List UInt8 := answers.filterMap ReadAnswer.byte?

theorem delivered_append {given : List ReadAnswer} (h : ∀ a ∈ given, a.GoesOn)
    (script : List ReadAnswer) :
    delivered (given ++ script) = bytesOf given ++ delivered script := by
  induction given with
  | nil => rfl
  | cons a given ih =>
    obtain ⟨⟨b⟩ | he, hgiven⟩ := List.forall_mem_cons.1 h
    · exact congrArg (b :: ·) (ih hgiven)
    · exact (if_pos he).trans (ih hgiven)

theorem failing?_append {given : List ReadAnswer} (h : ∀ a ∈ given, a.GoesOn)
    (script : List ReadAnswer) : failing? (given ++ script) = failing? script := by
  induction given with
  | nil => rfl
  | cons a given ih =>
    obtain ⟨⟨b⟩ | he, hgiven⟩ := List.forall_mem_cons.1 h
    · exact ih hgiven
    · exact (if_pos he).trans (ih hgiven)

/-- A script up to the end that it answers with once it is used up. -/
def withEnd (script : List ReadAnswer) : List ReadAnswer := script ++ [.ended]

theorem delivered_withEnd (script : List ReadAnswer) :
    delivered (withEnd script) = delivered script := by
  induction script with
  | nil => rfl
  | cons a script ih =>
    unfold withEnd at *
    cases a <;> simp [delivered, ih]

theorem failing?_withEnd (script : List ReadAnswer) :
    failing? (withEnd script) = failing? script := by
  induction script with
  | nil => rfl
  | cons a script ih =>
    unfold withEnd at *
    cases a <;> simp [failing?, ih]

theorem settleRead_split (script : List ReadAnswer) :
    (∀ a ∈ (settleRead script).interruptions, a.GoesOn) ∧
      ∃ left, withEnd script =
          (settleRead script).interruptions ++ (settleRead script).answer :: left ∧
        ((settleRead script).answer ≠ .ended → left = withEnd (settleRead script).rest) := by
  refine ⟨fun a ha =>
    ReadAnswer.goesOn_of_isInterruption (isInterruption_of_mem_interruptions ha), ?_⟩
  have hsplit := List.takeWhile_append_dropWhile (p := ReadAnswer.isInterruption) (l := script)
  unfold settleRead settle withEnd
  cases hdrop : script.dropWhile ReadAnswer.isInterruption with
  | nil =>
    -- All of the script was interruptions, and its end settles the read.
    rw [hdrop, List.append_nil] at hsplit
    refine ⟨[], ?_, fun h => absurd rfl h⟩
    simp [hsplit]
  | cons a left =>
    rw [hdrop] at hsplit
    refine ⟨left ++ [.ended], ?_, fun _ => rfl⟩
    dsimp only [List.headD_cons]
    rw [← List.cons_append, ← List.append_assoc, hsplit]

namespace ByteSource

/-- What has become of a script: it is still being read, or it has come to an end or a failure. -/
inductive Account (script : List ReadAnswer) (s : ByteSource) : Prop
  | reading {given : List ReadAnswer} : (∀ a ∈ given, a.GoesOn) →
      withEnd script = given ++ withEnd s.script → s.reads = given.length → s.exhausted = false →
      s.failure = none → Account script s
  | ended {given left : List ReadAnswer} : (∀ a ∈ given, a.GoesOn) →
      withEnd script = given ++ .ended :: left → s.reads = given.length + 1 → s.exhausted = true →
      s.failure = none → Account script s
  | failed {given left : List ReadAnswer} {e : IoError} : (∀ a ∈ given, a.GoesOn) →
      withEnd script = given ++ .failed e :: left → e.isInterruption = false →
      s.reads = given.length + 1 → s.exhausted = true → s.failure = some e → Account script s

variable {script : List ReadAnswer} {s : ByteSource}

theorem account_ofScript (script : List ReadAnswer) : Account script (ofScript script) :=
  have hnone : ∀ a ∈ ([] : List ReadAnswer), a.GoesOn := by simp
  .reading hnone rfl rfl rfl rfl

theorem Account.supply (h : Account script s) : Account script s.supply.2 := by
  cases h with
  | ended hgiven hscript hreads hexhausted hfailure =>
    rw [ByteSource.supply, if_pos hexhausted]
    exact .ended hgiven hscript hreads hexhausted hfailure
  | failed hgiven hscript he hreads hexhausted hfailure =>
    rw [ByteSource.supply, if_pos hexhausted]
    exact .failed hgiven hscript he hreads hexhausted hfailure
  | @reading given hgiven hscript hreads hexhausted hfailure =>
    obtain ⟨hmore, left, hsplit, hleft⟩ := settleRead_split s.script
    have hall := List.forall_mem_append.2 ⟨hgiven, hmore⟩
    have hlength : s.reads + (settleRead s.script).interruptions.length + 1 =
        (given ++ (settleRead s.script).interruptions).length + 1 := by
      rw [hreads, List.length_append]
    have hanswer := isInterruption_answer_settleRead s.script
    rw [hsplit, ← List.append_assoc] at hscript
    unfold ByteSource.supply
    rw [if_neg (Bool.eq_false_iff.1 hexhausted)]
    dsimp only
    cases ha : (settleRead s.script).answer with
    | byte b =>
      rw [ha, hleft (by rw [ha]; rintro ⟨⟩), List.append_cons] at hscript
      refine .reading ?_ hscript ?_ hexhausted hfailure
      · refine List.forall_mem_append.2 ⟨hall, fun a hmem => ?_⟩
        exact List.mem_singleton.1 hmem ▸ .byte b
      · rw [List.length_append, List.length_singleton]
        exact hlength
    | ended =>
      rw [ha] at hscript
      exact .ended hall hscript hlength rfl hfailure
    | failed e =>
      rw [ha] at hscript hanswer
      exact .failed hall hscript hanswer hlength rfl rfl

theorem account_after (script : List ReadAnswer) (k : Nat) :
    Account script (Source.after (ofScript script) k) := by
  induction k with
  | zero => exact account_ofScript script
  | succ k ih => exact ih.supply

/-- The source was read to its true end: these are all the answers before it, and none of them is a
failure. -/
structure ReadToEnd (script given : List ReadAnswer) (s : ByteSource) : Prop where
  goesOn : ∀ a ∈ given, a.GoesOn
  given_eq : (withEnd script).take s.reads = given ++ [.ended]
  reads_eq : s.reads = given.length + 1
  failure_eq : s.failure = none

theorem Account.readToEnd (h : Account script s) (hexhausted : s.exhausted = true)
    (hfailure : s.failure = none) :
    ∃ given, ReadToEnd script given s ∧ delivered script = bytesOf given := by
  cases h with
  | reading _ _ _ hopen => rw [hexhausted] at hopen; contradiction
  | failed _ _ _ _ _ hsome => rw [hfailure] at hsome; contradiction
  | @ended given left hgiven hscript hreads =>
    refine ⟨given, ⟨hgiven, ?_, hreads, hfailure⟩, ?_⟩
    · rw [hreads, hscript, List.take_length_add_append]
      rfl
    · rw [← delivered_withEnd, hscript, delivered_append hgiven]
      exact List.append_nil _

theorem Account.failure_eq (h : Account script s) (hexhausted : s.exhausted = true) :
    s.failure = failing? script := by
  rw [← failing?_withEnd]
  cases h with
  | reading _ _ _ hopen => rw [hexhausted] at hopen; contradiction
  | ended hgiven hscript _ _ hfailure =>
    rw [hfailure, hscript, failing?_append hgiven]
    rfl
  | failed hgiven hscript he _ _ hfailure =>
    rw [hfailure, hscript, failing?_append hgiven]
    exact (if_neg (Bool.eq_false_iff.1 he)).symm

theorem Account.of_failed_mem (h : Account script s) {e : IoError}
    (he : e.isInterruption = false) (hmem : .failed e ∈ (withEnd script).take s.reads) :
    s.exhausted = true ∧ s.failure = some e := by
  have hfails : ¬(ReadAnswer.failed e).GoesOn := by
    rintro (_ | hint)
    rw [he] at hint
    contradiction
  cases h with
  | reading hgiven hscript hreads =>
    rw [hreads, hscript, List.take_left] at hmem
    exact absurd (hgiven _ hmem) hfails
  | ended hgiven hscript hreads =>
    rw [hreads, hscript, List.take_length_add_append] at hmem
    rcases List.mem_append.1 hmem with hmem | hmem
    · exact absurd (hgiven _ hmem) hfails
    · cases List.mem_singleton.1 hmem
  | failed hgiven hscript _ hreads hexhausted hfailure =>
    rw [hreads, hscript, List.take_length_add_append] at hmem
    rcases List.mem_append.1 hmem with hmem | hmem
    · exact absurd (hgiven _ hmem) hfails
    · cases List.mem_singleton.1 hmem
      exact ⟨hexhausted, hfailure⟩

/-! ## After a parse -/

theorem account_parseProgram (script : List ReadAnswer) :
    Account script (TokenStream.ofSource (ofScript script)).parseProgram.2.lexer.source := by
  have hlater := TokenStream.later_parseProgram (.ofSource (ofScript script))
  rw [Lexer.Later.source_eq hlater.lexer]
  exact account_after script _

theorem exhausted_of_parseProgram {after : TokenStream ByteSource} {p : Program}
    (h : (TokenStream.ofSource (ofScript script)).parseProgram = (.ok p, after)) :
    after.lexer.source.exhausted = true :=
  TokenStream.of_parseProgram_eq_ok (P := (·.exhausted = true)) (fun _ => exhausted_of_end) h

end ByteSource

theorem TextSource.chars_of_parseProgram {text : String} {after : TokenStream TextSource}
    {p : Program} (h : (TokenStream.ofSource (ofText text)).parseProgram = (.ok p, after)) :
    after.lexer.source.chars = [] :=
  TokenStream.of_parseProgram_eq_ok (P := (·.chars = [])) (fun _ => rest_after_end) h

end Brainfuck
