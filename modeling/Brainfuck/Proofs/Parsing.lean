import Brainfuck.Proofs.Draft

/-!
# Parsing puts a draft together

One statement of the parser is a few symbols put into a draft, so that a parse ends as the draft
does.
-/

namespace Brainfuck

namespace Placed

variable {finish : Nat} {ps : List Placed}

theorem cons_of_shown_symbol {s : Symbol} (h : (shown finish ps).kind = .symbol s) :
    ∃ p rest, ps = p :: rest ∧ p.symbol = s := by
  cases ps with
  | nil => simp [shown, Token.endOfFile] at h
  | cons p rest => exact ⟨p, rest, rfl, by simpa [shown] using h⟩

theorem nil_of_shown_end (h : (shown finish ps).kind = .endOfFile) : ps = [] := by
  cases ps with
  | nil => rfl
  | cons p rest => simp [shown] at h

theorem cons_of_shown_not_end (h : ¬(shown finish ps).isEnd = true) :
    ∃ p rest, ps = p :: rest := by
  cases ps with
  | nil => exact absurd rfl h
  | cons p rest => exact ⟨p, rest, rfl⟩

theorem cons_of_shown_other (hr : (shown finish ps).kind ≠ .symbol .rightBracket)
    (he : (shown finish ps).kind ≠ .endOfFile)
    (hl : (shown finish ps).kind ≠ .symbol .leftBracket) :
    ∃ p rest, ps = p :: rest ∧ p.symbol ≠ .leftBracket ∧ p.symbol ≠ .rightBracket := by
  cases ps with
  | nil => exact absurd rfl he
  | cons p rest =>
    exact ⟨p, rest, rfl, fun h => hl (by simp [shown, h]), fun h => hr (by simp [shown, h])⟩

end Placed

def Placed.isOperator (o : Operator) (p : Placed) : Bool := p.symbol == .operator o

theorem Placed.isOperator_iff {o : Operator} {p : Placed} :
    p.isOperator o = true ↔ p.symbol = .operator o := by
  simp [isOperator]

/-- The symbols do not go on with the run that the draft ends in. -/
def Draft.RunOver (d : Draft) (ps : List Placed) : Prop :=
  ∀ o, lastOperator? d.block = some o → ∀ p ∈ ps.head?, p.symbol ≠ .operator o

theorem Draft.RunOver.of_lastOperator?_eq_none {d : Draft} (h : lastOperator? d.block = none)
    (ps : List Placed) : d.RunOver ps := by
  intro o ho
  rw [h] at ho
  contradiction

theorem Draft.RunOver.push {s : Statement} (hs : lastOperator? [s] = none) (d : Draft)
    (ps : List Placed) : (d.push s).RunOver ps := by
  apply of_lastOperator?_eq_none
  rw [block_push]
  cases s <;> first | rfl | contradiction

theorem Draft.RunOver.ne {d : Draft} {p : Placed} {ps : List Placed} {o : Operator}
    (h : d.RunOver (p :: ps)) (hp : p.symbol = .operator o) : lastOperator? d.block ≠ some o :=
  fun ho => h o ho p rfl hp

namespace TokenStream

variable {σ : Type} [Source σ] {ts : TokenStream σ} {ps : List Placed} {finish : Nat}

/-! ## The token in sight -/

theorem Holds.cons_of_symbol {s : Symbol} (h : ts.Holds ps finish)
    (hk : ts.lookahead.1.kind = .symbol s) : ∃ p rest, ps = p :: rest ∧ p.symbol = s := by
  rw [h.lookahead_fst] at hk
  exact Placed.cons_of_shown_symbol hk

theorem Holds.nil_of_end (h : ts.Holds ps finish) (hk : ts.lookahead.1.kind = .endOfFile) :
    ps = [] := by
  rw [h.lookahead_fst] at hk
  exact Placed.nil_of_shown_end hk

theorem Holds.cons_of_not_end (h : ts.Holds ps finish) (he : ¬ts.lookahead.1.isEnd = true) :
    ∃ p rest, ps = p :: rest := by
  rw [h.lookahead_fst] at he
  exact Placed.cons_of_shown_not_end he

theorem Holds.cons_of_other (h : ts.Holds ps finish)
    (hr : ts.lookahead.1.kind ≠ .symbol .rightBracket) (he : ts.lookahead.1.kind ≠ .endOfFile)
    (hl : ts.lookahead.1.kind ≠ .symbol .leftBracket) :
    ∃ p rest, ps = p :: rest ∧ p.symbol ≠ .leftBracket ∧ p.symbol ≠ .rightBracket := by
  rw [h.lookahead_fst] at hr he hl
  exact Placed.cons_of_shown_other hr he hl

theorem Holds.kind_lookahead {p : Placed} (h : ts.Holds (p :: ps) finish) :
    ts.lookahead.1.kind = .symbol p.symbol := by
  rw [h.lookahead_fst]
  rfl

theorem Holds.span_lookahead {p : Placed} (h : ts.Holds (p :: ps) finish) :
    ts.lookahead.1.span = p.span := by
  rw [h.lookahead_fst]
  rfl

/-! ## One statement that is no loop -/

theorem Holds.takeRun (h : ts.Holds ps finish) (o : Operator) (count : Nat) :
    (ts.takeRun o count).1 = count + (ps.takeWhile (·.isOperator o)).length ∧
      (ts.takeRun o count).2.Holds (ps.dropWhile (·.isOperator o)) finish := by
  fun_induction TokenStream.takeRun o count ts generalizing ps
  case case1 count ts seen hk hlt ih =>
    obtain ⟨p, rest, rfl, hp⟩ := h.cons_of_symbol hk
    obtain ⟨hcount, hholds⟩ := ih h.lookahead.next
    have ho : p.isOperator o = true := Placed.isOperator_iff.2 hp
    simp only [List.takeWhile_cons, List.dropWhile_cons, ho, if_true, List.length_cons]
    refine ⟨?_, hholds⟩
    rw [hcount, List.tail_cons]
    omega
  case case2 count ts seen hk =>
    -- The next token is of another kind, so no symbol is taken.
    simp only [seen, h.lookahead_fst] at hk
    have hhead : ∀ p ∈ ps.head?, p.isOperator o = false := by
      intro p hp
      cases ps with
      | nil => contradiction
      | cons q rest =>
        cases hp
        simpa [Placed.shown, Placed.isOperator] using hk
    cases ps with
    | nil => exact ⟨rfl, h.lookahead⟩
    | cons p rest =>
      simp only [List.takeWhile_cons, List.dropWhile_cons, hhead p rfl, Bool.false_eq_true, if_false]
      exact ⟨rfl, h.lookahead⟩

/-- The statement that a result holds goes into the draft with the symbols that were taken. -/
def TakesInto (d : Draft) (ps : List Placed) (finish : Nat) (s : Statement)
    (after : TokenStream σ) : Prop :=
  ∃ used left, ps = used ++ left ∧ d.putAll used = .ok (d.push s) ∧
    (d.push s).RunOver left ∧ after.Holds left finish

theorem takesInto_one {d : Draft} {p : Placed} {s : Statement} {after : TokenStream σ}
    (hput : d.put p = .ok (d.push s)) (hs : Draft.lastOperator? [s] = none)
    (h : after.Holds ps finish) : TakesInto d (p :: ps) finish s after := by
  refine ⟨[p], ps, rfl, ?_, .push hs d ps, h⟩
  rw [Draft.putAll_cons_of_ok hput, Draft.putAll]

theorem runOver_dropWhile (d : Draft) (o : Operator) (n : Nat) (ps : List Placed) :
    (d.push (.counted o n)).RunOver (ps.dropWhile (·.isOperator o)) := by
  intro o' ho p hp
  obtain rfl : o = o' := by simpa [Draft.lastOperator?] using ho
  have hnot := List.head?_dropWhile_not (·.isOperator o) ps
  rw [Option.mem_def.1 hp] at hnot
  intro hsym
  exact absurd (Placed.isOperator_iff.2 hsym) (by simpa using hnot)

theorem Holds.parseSingle {p : Placed} (h : ts.Holds (p :: ps) finish)
    (hl : p.symbol ≠ .leftBracket) (hr : p.symbol ≠ .rightBracket) {d : Draft}
    (hd : d.RunOver (p :: ps)) :
    ∃ s after, ts.parseSingle = (.ok s, after) ∧ TakesInto d (p :: ps) finish s after := by
  have hk : ts.next.1.kind = .symbol p.symbol := by rw [h.next_fst]; rfl
  have hn : ts.next.2.Holds ps finish := h.next
  rcases p with ⟨_ | _ | o | _ | _, offset⟩
  · refine ⟨.print, ts.next.2, by simp [TokenStream.parseSingle, hk], ?_⟩
    exact takesInto_one rfl rfl hn
  · refine ⟨.input, ts.next.2, by simp [TokenStream.parseSingle, hk], ?_⟩
    exact takesInto_one rfl rfl hn
  · obtain ⟨hcount, hrest⟩ := hn.takeRun o 1
    -- A run takes all symbols of its own, so that none is left to join it.
    refine ⟨_, _, by simp only [TokenStream.parseSingle, hk]; rfl, ?_⟩
    refine ⟨⟨.operator o, offset⟩ :: ps.takeWhile (·.isOperator o), _, ?_, ?_, ?_, hrest⟩
    · rw [List.cons_append, List.takeWhile_append_dropWhile]
    · rw [hcount]
      refine Draft.putAll_new_run (hd.ne rfl) rfl fun q hq => ?_
      exact Placed.isOperator_iff.1 (List.all_eq_true.1 List.all_takeWhile q hq)
    · exact runOver_dropWhile d o _ ps
  · exact absurd rfl hl
  · exact absurd rfl hr

theorem Holds.parseSingle_stray {p : Placed} (h : ts.Holds (p :: ps) finish)
    (hp : p.symbol = .rightBracket) :
    ts.parseSingle = (.error (.unexpectedToken p.token), ts.next.2) := by
  have hk : ts.next.1.kind = .symbol .rightBracket := by rw [h.next_fst, ← hp]; rfl
  simp only [TokenStream.parseSingle, hk]
  rw [h.next_fst]
  rfl

/-! ## Loops -/

/-- How a parse of one statement ends: with all loops closed, or in the error that the draft comes
to. -/
def ParsedFrom (d : Draft) (ps : List Placed) (finish : Nat) :
    Except ParseError Statement × TokenStream σ → Prop
  | (.ok s, after) => ∃ used left, ps = used ++ left ∧
      d.putAll used = .ok (Draft.push ⟨[], d.done⟩ s) ∧
      (Draft.push ⟨[], d.done⟩ s).RunOver left ∧ after.Holds left finish
  | (.error e, after) => d.complete ps finish = .error e ∧ ∃ left, after.Holds left finish

theorem ParsedFrom.of_putAll {d next : Draft} {used : List Placed}
    {parsed : Except ParseError Statement × TokenStream σ} (hput : d.putAll used = .ok next)
    (hdone : next.done = d.done) (h : ParsedFrom next ps finish parsed) :
    ParsedFrom d (used ++ ps) finish parsed := by
  rcases parsed with ⟨e | s, after⟩
  · obtain ⟨he, hleft⟩ := h
    exact ⟨by rw [Draft.complete_append_of_ok hput, he], hleft⟩
  · obtain ⟨more, left, rfl, hmore, hover, hleft⟩ := h
    rw [hdone] at hmore hover
    refine ⟨used ++ more, left, by rw [List.append_assoc], ?_, hover, hleft⟩
    rw [Draft.putAll_append_of_ok hput, hmore]

theorem ParsedFrom.of_put {d next : Draft} {p : Placed}
    {parsed : Except ParseError Statement × TokenStream σ} (hput : d.put p = .ok next)
    (hdone : next.done = d.done) (h : ParsedFrom next ps finish parsed) :
    ParsedFrom d (p :: ps) finish parsed := by
  have hone : d.putAll [p] = .ok next := by rw [Draft.putAll_cons_of_ok hput, Draft.putAll]
  exact ParsedFrom.of_putAll hone hdone h

theorem Holds.parseBody (h : ts.Holds ps finish) (inner : OpenLoop) (outer : List OpenLoop)
    (done : List Statement) (hd : Draft.RunOver ⟨inner :: outer, done⟩ ps) :
    ParsedFrom ⟨inner :: outer, done⟩ ps finish (ts.parseBody inner outer) := by
  fun_induction TokenStream.parseBody inner outer ts generalizing ps
  case case1 inner ts seen hk hlt left =>
    -- The bracket closes the outermost loop.
    obtain ⟨p, rest, rfl, hp⟩ := h.cons_of_symbol hk
    refine ⟨[p], rest, rfl, ?_, .of_lastOperator?_eq_none rfl rest,
      h.lookahead.next.record (by simp)⟩
    rw [Draft.putAll_cons_of_ok (Draft.put_rightBracket hp rfl), Draft.putAll]
  case case2 inner ts seen hk hlt left around outer ih =>
    obtain ⟨p, rest, rfl, hp⟩ := h.cons_of_symbol hk
    have hleft : left.Holds rest finish := h.lookahead.next.record (by simp)
    exact .of_put (Draft.put_rightBracket hp rfl) rfl
      (ih hleft (.of_lastOperator?_eq_none rfl rest))
  case case3 inner outer ts seen hk =>
    obtain rfl := h.nil_of_end hk
    refine ⟨?_, [], h.lookahead⟩
    rw [h.lookahead_fst]
    rfl
  case case4 inner outer ts seen hk hlt ih =>
    obtain ⟨p, rest, rfl, hp⟩ := h.cons_of_symbol hk
    have hspan : seen.1.span = p.span := h.span_lookahead
    rw [hspan] at ih ⊢
    refine .of_put (Draft.put_leftBracket hp) rfl (ih ?_ (.of_lastOperator?_eq_none rfl rest))
    exact h.lookahead.next.record (by simp)
  case case5 inner outer ts seen s after hs hlt hle hr he hl ih =>
    obtain ⟨p, rest, rfl, hpl, hpr⟩ := h.cons_of_other hr he hl
    obtain ⟨s', after', hs', used, left, heq, hput, hover, hleft⟩ :=
      h.lookahead.parseSingle hpl hpr hd
    cases hs.symm.trans hs'
    rw [heq]
    exact .of_putAll hput rfl (ih hleft hover)
  case case6 inner outer ts seen e after hs hr he hl =>
    -- Only a bracket or the end could be no statement.
    obtain ⟨p, rest, rfl, hpl, hpr⟩ := h.cons_of_other hr he hl
    obtain ⟨s', after', hs', -⟩ := h.lookahead.parseSingle hpl hpr hd
    cases hs.symm.trans hs'

theorem Holds.parseOpened {p : Placed} (h : ts.Holds (p :: ps) finish) (hp : p.symbol = .leftBracket)
    (hk : ts.lookahead.1.kind = .symbol .leftBracket) (done : List Statement) :
    ParsedFrom ⟨[], done⟩ (p :: ps) finish (ts.parseOpened hk) := by
  have hspan : ts.next.1.span = p.span := by rw [h.next_fst]; rfl
  refine .of_put (Draft.put_leftBracket hp) rfl ?_
  unfold TokenStream.parseOpened
  simp only [hspan]
  exact (h.next.record (by simp)).parseBody _ _ _ (.of_lastOperator?_eq_none rfl ps)

theorem Holds.parseStatement {p : Placed} (h : ts.Holds (p :: ps) finish) (done : List Statement)
    (hd : Draft.RunOver ⟨[], done⟩ (p :: ps)) :
    ParsedFrom ⟨[], done⟩ (p :: ps) finish ts.parseStatement := by
  have hkind := h.kind_lookahead
  unfold TokenStream.parseStatement
  by_cases hl : p.symbol = .leftBracket
  · rw [dif_pos (by rw [hkind, hl])]
    exact h.lookahead.parseOpened hl _ done
  rw [dif_neg (by rw [hkind]; simpa using hl)]
  by_cases hr : p.symbol = .rightBracket
  · rw [h.lookahead.parseSingle_stray hr]
    refine ⟨?_, ps, h.lookahead.next⟩
    rw [Draft.complete, Draft.putAll_cons_of_error (Draft.put_stray hr rfl)]
  · obtain ⟨s, after, hs, htakes⟩ := h.lookahead.parseSingle hl hr hd
    rw [hs]
    exact htakes

/-! ## Whole programs -/

theorem Holds.parseStatements (h : ts.Holds ps finish) (done : List Statement)
    (hd : Draft.RunOver ⟨[], done⟩ ps) :
    (ts.parseStatements done).1 = Draft.complete ⟨[], done⟩ ps finish ∧
      ∃ left, (ts.parseStatements done).2.Holds left finish := by
  fun_induction TokenStream.parseStatements done ts generalizing ps
  case case1 done ts seen he =>
    obtain rfl := h.nil_of_end (beq_iff_eq.1 he)
    exact ⟨rfl, [], h.lookahead⟩
  case case2 done ts seen he s after hs hlt ih =>
    obtain ⟨p, rest, rfl⟩ := h.cons_of_not_end he
    have hparsed := h.lookahead.parseStatement done hd
    simp only [seen] at hs
    rw [hs] at hparsed
    obtain ⟨used, left, heq, hput, hover, hleft⟩ := hparsed
    rw [heq, Draft.complete_append_of_ok hput]
    exact ih hleft hover
  case case3 done ts seen he e after hs =>
    obtain ⟨p, rest, rfl⟩ := h.cons_of_not_end he
    have hparsed := h.lookahead.parseStatement done hd
    simp only [seen] at hs
    rw [hs] at hparsed
    exact ⟨hparsed.1.symm, hparsed.2⟩

theorem Holds.parseProgram (h : ts.Holds ps finish) :
    ts.parseProgram.1 = Draft.empty.complete ps finish ∧
      ∃ left, ts.parseProgram.2.Holds left finish := by
  obtain ⟨heq, left, hleft⟩ := h.parseStatements [] (.of_lastOperator?_eq_none rfl ps)
  unfold TokenStream.parseProgram
  split
  · rename_i p after hp
    rw [hp] at heq hleft
    exact ⟨heq, left, hleft.record (by simp)⟩
  · rename_i e after hp
    rw [hp] at heq hleft
    exact ⟨heq, left, hleft⟩

end TokenStream

def symbolsOf (text : String) : List Placed := Placed.scan 0 text.toList

theorem holds_text (text : String) :
    (TokenStream.ofSource (TextSource.ofText text)).Holds (symbolsOf text) text.length := by
  have h := TokenStream.holds_ofSource (TextSource.ofText text)
  rwa [show Source.position (TextSource.ofText text) = 0 from rfl, Nat.zero_add] at h

/-- A text holds the program that its symbols put together. -/
theorem parse_eq_complete (text : String) :
    parse text = Draft.empty.complete (symbolsOf text) text.length :=
  (holds_text text).parseProgram.1

end Brainfuck
