import Brainfuck.Proofs.Alike

/-!
# Asking a source

Lexers, token streams and parsers do nothing to a source but ask it for characters. What becomes of
the source is a matter of how often it has been asked.
-/

namespace Brainfuck

open Source

variable {σ τ : Type} [Source σ] [Source τ]

namespace Lexer

/-- The lexer later on, when it has pulled and recorded any number of times. -/
inductive Later (l : Lexer σ) : Lexer σ → Prop where
  | now : Later l l
  | pull {m : Lexer σ} : Later l m → Later l m.pull.2
  | record {m : Lexer σ} (e : Event) : Later l m → Later l (m.record e)

variable {l m : Lexer σ}

theorem Later.trans {n : Lexer σ} (h : l.Later m) (h' : m.Later n) : l.Later n := by
  induction h' with
  | now => exact h
  | pull _ ih => exact ih.pull
  | record e _ ih => exact ih.record e

theorem later_pull (l : Lexer σ) : l.Later l.pull.2 := Later.now.pull

theorem later_next (l : Lexer σ) : l.Later l.next.2 := by
  fun_induction next l with
  | case1 l asked h => exact later_pull l
  | case2 l asked c h hs this ih => exact (later_pull l).trans ih
  | case3 l asked c h s hs token => exact (later_pull l).record _

theorem later_collect (l : Lexer σ) : l.Later l.collect.2 := by
  fun_induction collect l with
  | case1 l token scanned hnext ended =>
    have hfirst := later_next l
    rwa [hnext] at hfirst
  | case2 l token scanned hnext ended hlt more ih =>
    have hfirst := later_next l
    rw [hnext] at hfirst
    exact hfirst.trans ih

theorem later_answer (l : Lexer σ) (r : Request) : l.Later (l.answer r).2 := by
  cases r with
  | next => exact later_next l
  | collect => exact later_collect l

end Lexer

namespace TokenStream

/-- The stream later on, when it has shown, taken and recorded any number of times. -/
inductive Later (ts : TokenStream σ) : TokenStream σ → Prop where
  | now : Later ts ts
  | lookahead {us : TokenStream σ} : Later ts us → Later ts us.lookahead.2
  | next {us : TokenStream σ} : Later ts us → Later ts us.next.2
  | record {us : TokenStream σ} (e : Event) : Later ts us → Later ts (us.record e)

theorem Later.trans {ts us vs : TokenStream σ} (h : ts.Later us) (h' : us.Later vs) :
    ts.Later vs := by
  induction h' with
  | now => exact h
  | lookahead _ ih => exact ih.lookahead
  | next _ ih => exact ih.next
  | record e _ ih => exact ih.record e

theorem later_lookahead (ts : TokenStream σ) : ts.Later ts.lookahead.2 := Later.now.lookahead

theorem later_next (ts : TokenStream σ) : ts.Later ts.next.2 := Later.now.next

theorem Later.lexer {ts us : TokenStream σ} (h : ts.Later us) : ts.lexer.Later us.lexer := by
  induction h with
  | now => exact .now
  | @lookahead us _ ih =>
    rcases us with ⟨lexer, _ | token⟩
    · exact ih.trans lexer.later_next
    · exact ih
  | @next us _ ih =>
    rcases us with ⟨lexer, _ | token⟩
    · exact ih.trans lexer.later_next
    · exact ih
  | record e _ ih => exact ih.record e

theorem later_takeRun (o : Operator) (count : Nat) (ts : TokenStream σ) :
    ts.Later (ts.takeRun o count).2 := by
  fun_induction takeRun o count ts with
  | case1 count ts seen hk hlt ih =>
    simp only [seen, next_lookahead] at ih ⊢
    exact ts.later_next.trans ih
  | case2 count ts seen hk => exact ts.later_lookahead

theorem later_parseSingle (ts : TokenStream σ) : ts.Later ts.parseSingle.2 := by
  unfold parseSingle
  simp only
  split
  · exact ts.later_next
  · exact ts.later_next
  · exact ts.later_next.trans (later_takeRun ..)
  · exact ts.later_next

theorem later_parseBody (inner : OpenLoop) (outer : List OpenLoop) (ts : TokenStream σ) :
    ts.Later (ts.parseBody inner outer).2 := by
  fun_induction parseBody inner outer ts with
  | case1 inner ts seen hk hlt left =>
    simp only [left, seen, next_lookahead]
    exact ts.later_next.record _
  | case2 inner ts seen hk hlt left around outer ih =>
    simp only [left, seen, next_lookahead] at ih ⊢
    exact (ts.later_next.record _).trans ih
  | case3 inner outer ts seen hk => exact ts.later_lookahead
  | case4 inner outer ts seen hk hlt ih =>
    simp only [seen, next_lookahead] at ih ⊢
    exact (ts.later_next.record _).trans ih
  | case5 inner outer ts seen s after hs hlt hle hr he hl ih =>
    have hsingle := later_parseSingle seen.2
    rw [hs] at hsingle
    exact (ts.later_lookahead.trans hsingle).trans ih
  | case6 inner outer ts seen e after hs hr he hl =>
    have hsingle := later_parseSingle seen.2
    rw [hs] at hsingle
    exact ts.later_lookahead.trans hsingle

theorem later_parseOpened (ts : TokenStream σ) (h : ts.lookahead.1.kind = .symbol .leftBracket) :
    ts.Later (ts.parseOpened h).2 := by
  unfold parseOpened
  exact (ts.later_next.record _).trans (later_parseBody _ _ (ts.next.2.record _))

theorem later_parseLoop (ts : TokenStream σ) : ts.Later ts.parseLoop.2 := by
  unfold parseLoop
  simp only
  split
  · exact ts.later_lookahead.trans (later_parseOpened ..)
  · exact ts.later_lookahead.next

theorem later_parseStatement (ts : TokenStream σ) : ts.Later ts.parseStatement.2 := by
  unfold parseStatement
  simp only
  split
  · exact ts.later_lookahead.trans (later_parseOpened ..)
  · exact ts.later_lookahead.trans (later_parseSingle _)

theorem later_parseStatements (done : List Statement) (ts : TokenStream σ) :
    ts.Later (ts.parseStatements done).2 := by
  fun_induction parseStatements done ts with
  | case1 done ts seen he => exact ts.later_lookahead
  | case2 done ts seen he s after hs hlt ih =>
    have hstatement := later_parseStatement seen.2
    rw [hs] at hstatement
    exact (ts.later_lookahead.trans hstatement).trans ih
  | case3 done ts seen he e after hs =>
    have hstatement := later_parseStatement seen.2
    rw [hs] at hstatement
    exact ts.later_lookahead.trans hstatement

theorem later_parseProgram (ts : TokenStream σ) : ts.Later ts.parseProgram.2 := by
  have hparsed := later_parseStatements [] ts
  unfold parseProgram
  split
  · rename_i p after hp
    rw [hp] at hparsed
    exact hparsed.record _
  · rename_i e after he
    rwa [he] at hparsed

theorem later_answer (ts : TokenStream σ) (r : Request) : ts.Later (ts.answer r).2 := by
  rcases r with (_ | _) | _ | _ | _
  · exact ts.later_lookahead
  · exact ts.later_next
  · exact ts.later_parseSingle
  · exact ts.later_parseLoop
  · exact ts.later_parseProgram

theorem later_answerReader (ts : TokenStream σ) (r : ReaderRequest) :
    ts.lexer.Later (ts.answerReader r).2.lexer := by
  cases r with
  | lexer r => exact ts.lexer.later_answer r
  | stream r => exact (ts.later_answer r).lexer
  | intoLexer => exact .now

end TokenStream

/-! ## Sources that have been asked -/

/-- The source once it has been asked so many times. -/
def Source.after (s : σ) : (asked : Nat) → σ
  | 0 => s
  | k + 1 => (supply (Source.after s k)).2

theorem Lexer.Later.source_eq {s : σ} {l : Lexer σ} (h : (ofSource s).Later l) :
    l.source = Source.after s l.pulls := by
  induction h with
  | now => rfl
  | pull h ih => rw [source_pull, pulls_pull, ih, Source.after]
  | record e h ih => exact ih

theorem trace_eq_of_after {ν : Type} {s : σ} {s' : τ} {view : σ → ν} {view' : τ → ν}
    (h : (TokenStream.ofSource s).Alike (TokenStream.ofSource s'))
    (hview : ∀ k, view (Source.after s k) = view' (Source.after s' k))
    (requests : List ReaderRequest) :
    trace TokenStream.answerReader (fun ts => (ts.supplied, view ts.lexer.source))
        (.ofSource s) requests =
      trace TokenStream.answerReader (fun ts => (ts.supplied, view' ts.lexer.source))
        (.ofSource s') requests := by
  -- What is seen of a source depends on how often it was asked, which is the same for both.
  refine trace_eq_trace
    (R := fun ts us => ts.Alike us ∧
      (Lexer.ofSource s).Later ts.lexer ∧ (Lexer.ofSource s').Later us.lexer)
    ?_ ?_ ⟨h, .now, .now⟩ requests
  · rintro ts us r ⟨halike, hts, hus⟩
    obtain ⟨hanswer, hafter⟩ := halike.answerReader r
    exact ⟨hanswer, hafter, hts.trans (ts.later_answerReader r), hus.trans (us.later_answerReader r)⟩
  · rintro ts us ⟨halike, hts, hus⟩
    have hsupplied : ts.supplied = us.supplied :=
      Prod.ext halike.lexer.pulls_eq halike.lexer.position_eq
    simp only [hsupplied, hts.source_eq, hus.source_eq, halike.lexer.pulls_eq, hview]

end Brainfuck
