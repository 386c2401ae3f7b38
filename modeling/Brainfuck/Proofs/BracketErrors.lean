import Brainfuck.Proofs.Brackets
import Brainfuck.Proofs.Parsing

/-!
# The errors of a parse

Only brackets can be wrong. The loops that a draft has open are the brackets that nothing has closed
yet, so where a parse fails, and whether it does, is a matter of the balance of the text.
-/

namespace Brainfuck

namespace Draft

/-- Where the open loops were opened, the innermost first. -/
def openings (d : Draft) : List Span := d.loops.map OpenLoop.openedAt

@[simp] theorem openings_withBlock (d : Draft) (b : List Statement) :
    (d.withBlock b).openings = d.openings := by
  rcases d with ⟨_ | ⟨l, outer⟩, done⟩ <;> rfl

@[simp] theorem openings_push (d : Draft) (s : Statement) : (d.push s).openings = d.openings :=
  openings_withBlock ..

theorem exists_put_of_not_bracket (d : Draft) {p : Placed} (hl : p.symbol ≠ .leftBracket)
    (hr : p.symbol ≠ .rightBracket) : ∃ next, d.put p = .ok next ∧ next.openings = d.openings := by
  rcases p with ⟨_ | _ | o | _ | _, offset⟩
  · exact ⟨_, rfl, openings_push ..⟩
  · exact ⟨_, rfl, openings_push ..⟩
  · exact ⟨_, rfl, openings_withBlock ..⟩
  · exact absurd rfl hl
  · exact absurd rfl hr

theorem exists_put_close (d : Draft) {p : Placed} (hp : p.symbol = .rightBracket) {s : Span}
    {spans : List Span} (hd : d.openings = s :: spans) :
    ∃ next, d.put p = .ok next ∧ next.openings = spans := by
  rcases d with ⟨_ | ⟨l, outer⟩, done⟩
  · contradiction
  · refine ⟨_, put_rightBracket hp rfl, ?_⟩
    rw [openings_push]
    exact (List.cons.inj hd).2

/-- Loops that were open before stay open. -/
theorem putAll_scan_of_neverNegative (text : List Char) (offset : Nat) (d : Draft)
    (inside around : List Span) (hd : d.openings = inside ++ around)
    (h : ∀ k, 0 ≤ inside.length + balance (text.take k)) :
    ∃ last left, d.putAll (Placed.scan offset text) = .ok last ∧
      last.openings = left ++ around ∧ (left.length : Int) = inside.length + balance text := by
  induction text generalizing offset d inside with
  | nil => exact ⟨d, inside, rfl, hd, by simp⟩
  | cons c text ih =>
    have hrest : ∀ k, 0 ≤ inside.length + balance (c :: text.take k) := fun k => h (k + 1)
    by_cases ho : c = '['
    · subst ho
      simp only [balance_open] at hrest ⊢
      rw [Placed.scan_cons_of_symbol (s := .leftBracket) rfl,
        putAll_cons_of_ok (put_leftBracket rfl)]
      obtain ⟨last, left, hput, hlast, hlen⟩ := ih (offset + 1)
        ⟨.opened ⟨offset, offset + 1⟩ :: d.loops, d.done⟩ (⟨offset, offset + 1⟩ :: inside)
        (by rw [List.cons_append, ← hd]; rfl)
        (fun k => by have := hrest k; rw [List.length_cons]; omega)
      refine ⟨last, left, hput, hlast, ?_⟩
      rw [hlen, List.length_cons]
      omega
    by_cases hc : c = ']'
    · subst hc
      simp only [balance_close] at hrest ⊢
      -- There is a loop to close, since the balance does not fall below 0.
      cases inside with
      | nil =>
        have := hrest 0
        simp at this
      | cons s inside =>
        obtain ⟨next, hput, hnext⟩ := d.exists_put_close (p := ⟨.rightBracket, offset⟩) rfl hd
        rw [Placed.scan_cons_of_symbol (s := .rightBracket) rfl, putAll_cons_of_ok hput]
        simp only [List.length_cons] at hrest ⊢
        obtain ⟨last, left, hall, hlast, hlen⟩ := ih (offset + 1) next inside hnext
          (fun k => by have := hrest k; omega)
        exact ⟨last, left, hall, hlast, by omega⟩
    · simp only [balance_other ho hc] at hrest ⊢
      cases hs : Symbol.ofChar? c with
      | none =>
        rw [Placed.scan_cons_of_comment hs]
        exact ih (offset + 1) d inside hd hrest
      | some s =>
        have hchar := Symbol.ofChar?_eq_some_iff.1 hs
        obtain ⟨next, hput, hnext⟩ := d.exists_put_of_not_bracket (p := ⟨s, offset⟩)
          (fun (h : s = .leftBracket) => ho (by rw [hchar, h]; rfl))
          (fun (h : s = .rightBracket) => hc (by rw [hchar, h]; rfl))
        rw [Placed.scan_cons_of_symbol hs, putAll_cons_of_ok hput]
        exact ih (offset + 1) next inside (hnext.trans hd) hrest

theorem putAll_scan_of_balanced {text : List Char} (h : Balanced text) (offset : Nat) (d : Draft) :
    ∃ last, d.putAll (Placed.scan offset text) = .ok last ∧ last.openings = d.openings := by
  obtain ⟨last, left, hput, hlast, hlen⟩ := putAll_scan_of_neverNegative text offset d [] d.openings
    rfl (fun k => by simpa using h.1 k)
  rw [h.2] at hlen
  obtain rfl : left = [] := List.eq_nil_of_length_eq_zero (by simpa using hlen)
  exact ⟨last, hput, hlast⟩

end Draft

/-! ## The three ways a parse ends -/

open Placed Draft in
theorem complete_of_firstStray {text : List Char} {i : Nat} (h : FirstStray text i)
    (finish : Nat) :
    Draft.empty.complete (scan 0 text) finish =
      .error (.unexpectedToken ⟨⟨i, i + 1⟩, .symbol .rightBracket, ']'⟩) := by
  obtain ⟨u, v, rfl, rfl, hu⟩ := h.split
  obtain ⟨d, hput, hd⟩ := putAll_scan_of_balanced hu 0 empty
  have hstray : d.put ⟨.rightBracket, 0 + u.length⟩ = .error ⟨.rightBracket, 0 + u.length⟩ :=
    put_stray rfl (List.map_eq_nil_iff.1 hd)
  rw [scan_append, scan_cons_of_symbol (s := .rightBracket) rfl, complete_append_of_ok hput,
    complete, putAll_cons_of_error hstray, Nat.zero_add]
  rfl

open Placed Draft in
theorem complete_of_open {u v : List Char} (hu : NeverNegative u) (hv : Balanced v)
    (finish : Nat) :
    Draft.empty.complete (scan 0 (u ++ '[' :: v)) finish =
      .error (.unterminatedLoop ⟨u.length, u.length + 1⟩ (.point finish)) := by
  obtain ⟨d, left, hput, -⟩ := putAll_scan_of_neverNegative u 0 empty [] [] rfl
    (by simpa [NeverNegative] using hu)
  have hopen : d.put ⟨.leftBracket, u.length⟩ =
      .ok { d with loops := .opened ⟨u.length, u.length + 1⟩ :: d.loops } := put_leftBracket rfl
  obtain ⟨last, hinner, hlast⟩ := putAll_scan_of_balanced hv (u.length + 1)
    { d with loops := .opened ⟨u.length, u.length + 1⟩ :: d.loops }
  rw [scan_append, scan_cons_of_symbol (s := .leftBracket) rfl, Nat.zero_add,
    complete_append_of_ok hput, complete, putAll_cons_of_ok hopen, hinner]
  -- The loop opened there is the innermost one at the end.
  rcases last with ⟨_ | ⟨l, outer⟩, done⟩
  · contradiction
  · have : l.openedAt = ⟨u.length, u.length + 1⟩ := (List.cons.inj hlast).1
    simp only [toProgram, this]

open Placed Draft in
theorem complete_of_balanced {text : List Char} (h : Balanced text) (finish : Nat) :
    ∃ p, Draft.empty.complete (scan 0 text) finish = .ok p := by
  obtain ⟨d, hput, hd⟩ := putAll_scan_of_balanced h 0 empty
  refine ⟨d.done.reverse, ?_⟩
  rw [complete, hput]
  simp only [toProgram, List.map_eq_nil_iff.1 hd]

/-- The spans of the tokens scanned while a text is parsed: each was accepted when it was made, and
no offset reaches beyond the text. -/
def SpansInOrder (text : String) : Prop :=
  ∀ kind span, Event.scannedToken kind span ∈
      (TokenStream.ofSource (TextSource.ofText text)).parseProgram.2.lexer.log →
    Span.between span.start span.stop = .ok span ∧ 0 < span.stop ∧ span.stop ≤ text.length

theorem spansInOrder (text : String) : SpansInOrder text := by
  intro kind span hm
  obtain ⟨-, left, hleft⟩ := (holds_text text).parseProgram
  obtain ⟨hwidth, hstop⟩ := hleft.inOrder kind span hm
  have hle := Nat.le_trans hstop (Lexer.position_le_finish _)
  rw [hleft.finish_eq] at hle
  exact ⟨Span.between_eq_ok_iff.2 ⟨by omega, rfl⟩, by omega, hle⟩

/-- The first stray bracket fails a parse, else the last open one. -/
theorem parse_eq_of_balance (text : String) :
    (¬NeverNegative text.toList → ∃ i, FirstStray text.toList i ∧
      parse text = .error (.unexpectedToken ⟨⟨i, i + 1⟩, .symbol .rightBracket, ']'⟩)) ∧
    (NeverNegative text.toList → 0 < balance text.toList → ∃ j, LastOpen text.toList j ∧
      parse text = .error (.unterminatedLoop ⟨j, j + 1⟩ ⟨text.length, text.length⟩)) ∧
    (NeverNegative text.toList → ¬0 < balance text.toList → ∃ p, parse text = .ok p) ∧
    SpansInOrder text := by
  rw [parse_eq_complete, symbolsOf]
  refine ⟨?_, ?_, ?_, spansInOrder text⟩
  · intro hneg
    obtain ⟨i, hi⟩ := exists_firstStray hneg
    exact ⟨i, hi, complete_of_firstStray hi _⟩
  · intro hnever hpos
    -- What follows the bracket is balanced, so that it is the innermost one at the end.
    obtain ⟨u, v, heq, hv⟩ := exists_open_split text.toList hpos
    refine ⟨u.length, heq ▸ lastOpen_of_balanced u hv, ?_⟩
    have hu : NeverNegative u := by
      have := hnever.take u.length
      rwa [heq, List.take_left'] at this
      rfl
    rw [heq]
    exact complete_of_open hu hv _
  · intro hnever hpos
    exact complete_of_balanced ⟨hnever, by have := hnever.balance_nonneg; omega⟩ _

end Brainfuck
