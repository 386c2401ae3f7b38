import Brainfuck.Proofs.Folding
import Brainfuck.Proofs.ProgramText

/-!
# Where a parse stops

A parse that fails has taken the symbols up to a closing bracket with nothing to close, or all of
them when loops are still open at the end. A parse that succeeds has taken the symbols that its
result is written with.
-/

namespace Brainfuck

namespace Placed

def chars (ps : List Placed) : List Char := ps.map (·.symbol.toChar)

@[simp] theorem chars_append (ps qs : List Placed) : chars (ps ++ qs) = chars ps ++ chars qs :=
  List.map_append

theorem chars_cons_of_open {p : Placed} (h : p.symbol = .leftBracket) (ps : List Placed) :
    chars (p :: ps) = '[' :: chars ps := by
  rw [chars, List.map_cons, h]
  rfl

theorem chars_singleton_of_close {p : Placed} (h : p.symbol = .rightBracket) :
    chars [p] = [']'] := by
  rw [chars, List.map_singleton, h]
  rfl

theorem chars_eq_map_toChar (ps : List Placed) :
    chars ps = (ps.map Placed.symbol).map Symbol.toChar := by
  rw [List.map_map]
  rfl

theorem balanced_of_symbols {ps : List Placed} {s : Statement}
    (h : ps.map Placed.symbol = s.symbols) : Balanced (chars ps) := by
  rw [chars_eq_map_toChar, h]
  exact s.balanced_chars

/-! ## Brackets that stay open -/

/-- The last of the symbols that is a bracket left open stands at `s`. -/
def LastOpened (s : Span) (ps : List Placed) : Prop :=
  ∃ u p v, ps = u ++ p :: v ∧ p.symbol = .leftBracket ∧ p.span = s ∧ Balanced (chars v)

theorem LastOpened.append {s : Span} {ps : List Placed} (h : LastOpened s ps)
    (before : List Placed) : LastOpened s (before ++ ps) := by
  obtain ⟨u, p, v, rfl, hp, hs, hv⟩ := h
  exact ⟨before ++ u, p, v, by rw [List.append_assoc], hp, hs, hv⟩

/-- The brackets that stand at `spans`, the innermost first, are left open, and what follows each up
to the next is balanced. -/
inductive Unclosed : List Span → List Placed → Prop
  | first {p : Placed} {v : List Placed} : p.symbol = .leftBracket → Balanced (chars v) →
      Unclosed [p.span] (p :: v)
  | inner {spans : List Span} {u v : List Placed} {p : Placed} : Unclosed spans u →
      p.symbol = .leftBracket → Balanced (chars v) → Unclosed (p.span :: spans) (u ++ p :: v)

variable {spans : List Span} {s t : Span} {ps : List Placed} {p : Placed}

theorem Unclosed.lastOpened (h : Unclosed (s :: spans) ps) : LastOpened s ps := by
  cases h with
  | first hp hv => exact ⟨[], _, _, rfl, hp, rfl, hv⟩
  | inner _ hp hv => exact ⟨_, _, _, rfl, hp, rfl, hv⟩

theorem Unclosed.opening (h : Unclosed spans ps) (hp : p.symbol = .leftBracket) :
    Unclosed (p.span :: spans) (ps ++ [p]) :=
  .inner h hp balanced_nil

theorem Unclosed.append (h : Unclosed spans ps) {used : List Placed} (hu : Balanced (chars used)) :
    Unclosed spans (ps ++ used) := by
  cases h with
  | first hp hv => exact .first hp (chars_append .. ▸ hv.append hu)
  | inner h hp hv =>
    rw [List.append_assoc, List.cons_append]
    exact .inner h hp (chars_append .. ▸ hv.append hu)

theorem Unclosed.closing (h : Unclosed (s :: t :: spans) ps) (hp : p.symbol = .rightBracket) :
    Unclosed (t :: spans) (ps ++ [p]) := by
  cases h with
  | @inner _ u v q houter hq hv =>
    have hloop : Balanced (chars (q :: v ++ [p])) := by
      rw [chars_append, chars_cons_of_open hq, chars_singleton_of_close hp]
      exact hv.loop
    rw [List.append_assoc]
    exact houter.append hloop

theorem Unclosed.balance_pos (h : Unclosed spans ps) {k : Nat} (hk : 0 < k) :
    0 < balance ((chars ps).take k) := by
  induction h with
  | @first p v hp hv =>
    obtain ⟨m, rfl⟩ := Nat.exists_eq_succ_of_ne_zero (Nat.ne_of_gt hk)
    have := hv.1 m
    rw [chars_cons_of_open hp, List.take_succ_cons, balance_open]
    omega
  | @inner spans u v p hu hp hv ih =>
    rw [chars_append, chars_cons_of_open hp, List.take_append, balance_append]
    rcases k - (chars u).length with _ | m
    · simpa using ih
    · have := hv.1 m
      rw [List.take_succ_cons, balance_open]
      omega

theorem Unclosed.not_matches (h : Unclosed spans ps) (k : Nat) : ¬Matches (chars ps) 0 k := by
  intro hm
  obtain ⟨u, v, w, heq, hu, rfl, hv⟩ := matches_iff_split.1 hm
  obtain rfl := List.eq_nil_of_length_eq_zero hu
  have hpos := h.balance_pos (k := v.length + 2) (by omega)
  rw [heq, List.nil_append, List.take_succ_cons, balance_open, List.take_append,
    List.take_of_length_le (by omega), balance_append, hv.2] at hpos
  simp at hpos

end Placed

theorem Draft.symbols_of_putAll_push {d : Draft} {used : List Placed} {s : Statement}
    (h : d.putAll used = .ok (d.push s)) : used.map Placed.symbol = s.symbols := by
  have hsymbols := symbols_putAll h
  rw [symbols_push] at hsymbols
  exact (List.append_cancel_left hsymbols).symm

namespace TokenStream

variable {σ : Type} [Source σ] {ts after : TokenStream σ} {ps : List Placed} {finish : Nat}
  {e : ParseError}

/-! ## Failures -/

/-- The symbols that a parse has taken when it fails, and the error they come to. -/
def FailsOn (ps : List Placed) (finish : Nat) (after : TokenStream σ) : ParseError → Prop
  | .unterminatedLoop openedAt ended =>
      Placed.LastOpened openedAt ps ∧ ended = .point finish ∧ after.Holds [] finish
  | .unexpectedToken t => ∃ before p left, ps = before ++ p :: left ∧ t = p.token ∧
      p.symbol = .rightBracket ∧ Balanced (Placed.chars before) ∧ after.Holds left finish

theorem FailsOn.append {used : List Placed} (h : FailsOn ps finish after e)
    (hu : Balanced (Placed.chars used)) : FailsOn (used ++ ps) finish after e := by
  cases e with
  | unterminatedLoop openedAt ended => exact ⟨h.1.append used, h.2⟩
  | unexpectedToken t =>
    obtain ⟨before, p, left, rfl, ht, hp, hb, hleft⟩ := h
    refine ⟨used ++ before, p, left, by rw [List.append_assoc], ht, hp, ?_, hleft⟩
    rw [Placed.chars_append]
    exact hu.append hb

theorem Holds.parseSingle_used {p : Placed} (h : ts.Holds (p :: ps) finish)
    (hl : p.symbol ≠ .leftBracket) (hr : p.symbol ≠ .rightBracket) :
    ∃ s after used left, ts.parseSingle = (.ok s, after) ∧ p :: ps = used ++ left ∧
      used.map Placed.symbol = s.symbols ∧ after.Holds left finish := by
  obtain ⟨s, after, hs, used, left, heq, hput, -, hleft⟩ :=
    h.parseSingle hl hr (.of_lastOperator?_eq_none (d := Draft.empty) rfl _)
  exact ⟨s, after, used, left, hs, heq, Draft.symbols_of_putAll_push hput, hleft⟩

/-- A body fails only at the end, with its own loop open. -/
theorem Holds.parseBody_error (h : ts.Holds ps finish) {inner : OpenLoop} {outer : List OpenLoop}
    {before : List Placed}
    (hb : Placed.Unclosed ((inner :: outer).map OpenLoop.openedAt) before)
    (hp : ts.parseBody inner outer = (.error e, after)) :
    ∃ openedAt spans, e = .unterminatedLoop openedAt (.point finish) ∧
      Placed.Unclosed (openedAt :: spans) (before ++ ps) ∧ after.Holds [] finish := by
  fun_induction TokenStream.parseBody inner outer ts generalizing ps before
  case case1 => cases hp
  case case2 inner ts seen hk hlt left around outer ih =>
    obtain ⟨p, rest, rfl, hsym⟩ := h.cons_of_symbol hk
    have := ih (h.lookahead.next.record (by simp)) (hb.closing hsym) hp
    rwa [List.append_assoc] at this
  case case3 inner outer ts seen hk =>
    -- The end, with the brackets in `before` open and nothing left to close them.
    obtain rfl := h.nil_of_end hk
    cases hp
    refine ⟨_, _, ?_, by rw [List.append_nil]; exact hb, h.lookahead⟩
    rw [h.lookahead_fst]
    rfl
  case case4 inner outer ts seen hk hlt ih =>
    obtain ⟨p, rest, rfl, hsym⟩ := h.cons_of_symbol hk
    have hspan : seen.1.span = p.span := h.span_lookahead
    have hopening : Placed.Unclosed
        ((OpenLoop.opened seen.1.span :: inner :: outer).map OpenLoop.openedAt) (before ++ [p]) := by
      rw [hspan]
      exact hb.opening hsym
    have := ih (h.lookahead.next.record (by simp)) hopening hp
    rwa [List.append_assoc] at this
  case case5 inner outer ts seen s next hs hlt hle hr he hl ih =>
    -- A statement without brackets leaves the same ones open.
    obtain ⟨p, rest, rfl, hpl, hpr⟩ := h.cons_of_other hr he hl
    obtain ⟨s', next', used, left, hs', heq, hused, hleft⟩ := h.lookahead.parseSingle_used hpl hpr
    cases hs.symm.trans hs'
    have := ih hleft (hb.append (Placed.balanced_of_symbols hused)) hp
    rwa [List.append_assoc, ← heq] at this
  case case6 inner outer ts seen e' next hs hr he hl =>
    -- Only a bracket or the end could be no statement.
    obtain ⟨p, rest, rfl, hpl, hpr⟩ := h.cons_of_other hr he hl
    obtain ⟨s', next', -, -, hs', -⟩ := h.lookahead.parseSingle_used hpl hpr
    cases hs.symm.trans hs'

theorem Holds.parseOpened_error {p : Placed} (h : ts.Holds (p :: ps) finish)
    (hp : p.symbol = .leftBracket) (hk : ts.lookahead.1.kind = .symbol .leftBracket)
    (he : ts.parseOpened hk = (.error e, after)) :
    ∃ openedAt spans, e = .unterminatedLoop openedAt (.point finish) ∧
      Placed.Unclosed (openedAt :: spans) (p :: ps) ∧ after.Holds [] finish := by
  have hspan : ts.next.1.span = p.span := by rw [h.next_fst]; rfl
  unfold TokenStream.parseOpened at he
  have hopening : Placed.Unclosed ([OpenLoop.opened ts.next.1.span].map OpenLoop.openedAt) [p] := by
    rw [hspan]
    exact .first hp balanced_nil
  exact (h.next.record (by simp)).parseBody_error hopening he

theorem Holds.parseStatement_error {p : Placed} (h : ts.Holds (p :: ps) finish)
    (he : ts.parseStatement = (.error e, after)) : FailsOn (p :: ps) finish after e := by
  have hkind := h.kind_lookahead
  unfold TokenStream.parseStatement at he
  by_cases hl : p.symbol = .leftBracket
  · rw [dif_pos (by rw [hkind, hl])] at he
    obtain ⟨openedAt, spans, rfl, hopen, hafter⟩ := h.lookahead.parseOpened_error hl _ he
    exact ⟨hopen.lastOpened, rfl, hafter⟩
  rw [dif_neg (by rw [hkind]; simpa using hl)] at he
  by_cases hr : p.symbol = .rightBracket
  · rw [h.lookahead.parseSingle_stray hr] at he
    cases he
    exact ⟨[], p, ps, rfl, rfl, hr, balanced_nil, h.lookahead.next⟩
  · obtain ⟨s, next, -, -, hs, -⟩ := h.lookahead.parseSingle_used hl hr
    cases he.symm.trans hs

/-! ## Successes -/

theorem Holds.parseStatement_ok {s : Statement} {p : Placed} (h : ts.Holds (p :: ps) finish)
    (hs : ts.parseStatement = (.ok s, after)) :
    ∃ used left, p :: ps = used ++ left ∧ used.map Placed.symbol = s.symbols ∧
      after.Holds left finish := by
  have hparsed := h.parseStatement [] (.of_lastOperator?_eq_none rfl _)
  rw [hs] at hparsed
  obtain ⟨used, left, heq, hput, -, hleft⟩ := hparsed
  exact ⟨used, left, heq, Draft.symbols_of_putAll_push hput, hleft⟩

theorem Holds.parseStatements_ok {done p : List Statement} (h : ts.Holds ps finish)
    (hp : ts.parseStatements done = (.ok p, after)) :
    Program.symbols p = Program.symbols done.reverse ++ ps.map Placed.symbol ∧
      after.Holds [] finish := by
  fun_induction TokenStream.parseStatements done ts generalizing ps
  case case1 done ts seen he =>
    obtain rfl := h.nil_of_end (beq_iff_eq.1 he)
    cases hp
    exact ⟨by simp, h.lookahead⟩
  case case2 done ts seen he s next hs hlt ih =>
    obtain ⟨q, rest, rfl⟩ := h.cons_of_not_end he
    obtain ⟨used, left, heq, hused, hleft⟩ := h.lookahead.parseStatement_ok hs
    obtain ⟨hsymbols, hafter⟩ := ih hleft hp
    refine ⟨?_, hafter⟩
    rw [hsymbols, heq, List.map_append, hused, List.reverse_cons, Program.symbols_append]
    simp [Program.symbols]
  case case3 => cases hp

theorem Holds.parseStatements_error {done : List Statement} (h : ts.Holds ps finish)
    (he : ts.parseStatements done = (.error e, after)) : FailsOn ps finish after e := by
  fun_induction TokenStream.parseStatements done ts generalizing ps
  case case1 => cases he
  case case2 done ts seen hend s next hs hlt ih =>
    obtain ⟨q, rest, rfl⟩ := h.cons_of_not_end hend
    obtain ⟨used, left, heq, hused, hleft⟩ := h.lookahead.parseStatement_ok hs
    rw [heq]
    exact (ih hleft he).append (Placed.balanced_of_symbols hused)
  case case3 done ts seen hend e' next hs =>
    obtain ⟨q, rest, rfl⟩ := h.cons_of_not_end hend
    cases he
    exact h.lookahead.parseStatement_error hs

theorem parseBody_eq_ok {inner : OpenLoop} {outer : List OpenLoop} {s : Statement}
    (h : ts.parseBody inner outer = (.ok s, after)) : ∃ body, s = .loop body := by
  fun_induction TokenStream.parseBody inner outer ts
  case case1 => exact ⟨_, (Except.ok.inj (congrArg Prod.fst h)).symm⟩
  case case2 ih => exact ih h
  case case3 => cases h
  case case4 ih => exact ih h
  case case5 ih => exact ih h
  case case6 => cases h

end TokenStream

end Brainfuck
