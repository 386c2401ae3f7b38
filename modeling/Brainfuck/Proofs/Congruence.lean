import Brainfuck.Proofs.Bytes
import Brainfuck.Proofs.Calls
import Brainfuck.Proofs.Simulation
import Mathlib.Data.List.Forall2

/-!
# Counts modulo 256

What a run of `+` or `-` does depends on its count only modulo 256, and adding is subtracting the
rest. Programs that differ in nothing else cannot be told apart.
-/

namespace Brainfuck

open Progress

/-! ## What a run adds -/

namespace Operator

def ChangesCell (o : Operator) : Prop := o = .increment ∨ o = .decrement

/-- What a run of the operator adds to the current cell, before it is reduced to a byte. -/
def change : Operator → Nat → Int
  | increment, n => n
  | decrement, n => -n
  | shiftLeft, _ | shiftRight, _ => 0

end Operator

theorem Machine.apply_of_changesCell {o : Operator} (h : o.ChangesCell) (n : Nat) (m : Machine) :
    m.apply o n = (.ok (), m.setValue (m.value + UInt8.ofInt (o.change n))) := by
  rcases h with rfl | rfl
  · unfold Operator.change
    rw [ofInt_natCast]
    rfl
  · unfold Operator.change
    rw [UInt8.ofInt_neg, ofInt_natCast, ← UInt8.sub_eq_add_neg]
    rfl

/-! ## Congruent programs -/

/-- The statements are the same, but that a run of `+` or `-` may stand against another one which
adds the same modulo 256. -/
inductive Statement.Congruent : Statement → Statement → Prop
  | same {s : Statement} : Congruent s s
  | change {o o' : Operator} {n n' : Nat} : o.ChangesCell → o'.ChangesCell →
      o.change n ≡ o'.change n' [ZMOD 256] → Congruent (.counted o n) (.counted o' n')
  | loop {body body' : Program} : List.Forall₂ Congruent body body' →
      Congruent (.loop body) (.loop body')

/-- The programs have the same shape, with congruent statements at every place. -/
abbrev Program.Congruent : Program → Program → Prop := List.Forall₂ Statement.Congruent

theorem Program.congruent_self (p : Program) : Congruent p p :=
  List.forall₂_same.2 fun _ _ => .same

theorem Machine.apply_of_congruent {o o' : Operator} {n n' : Nat} (ho : o.ChangesCell)
    (ho' : o'.ChangesCell) (h : o.change n ≡ o'.change n' [ZMOD 256]) (m : Machine) :
    m.apply o n = m.apply o' n' := by
  rw [m.apply_of_changesCell ho, m.apply_of_changesCell ho', ofInt_eq_ofInt_iff.2 h]

/-! ## Congruent runs -/

structure CongruentRuns (e e' : Execution) : Prop where
  todo : Program.Congruent e.todo e'.todo
  machine_eq : e'.machine = e.machine

variable {rest rest' : Program}

theorem alongside_proceed_congruent (h : Program.Congruent rest rest')
    (x : Except Fault Unit × Machine) :
    Alongside CongruentRuns Eq (Execution.proceed rest x) (Execution.proceed rest' x) := by
  rcases x with ⟨f | ⟨⟩, m⟩
  · exact .stopped rfl
  · exact .running ⟨h, rfl⟩

theorem alongside_loop_congruent {body body' : Program} (hbody : Program.Congruent body body')
    (h : Program.Congruent rest rest') (m : Machine) :
    Alongside CongruentRuns Eq (Execution.step ⟨.loop body :: rest, m⟩)
      (Execution.step ⟨.loop body' :: rest', m⟩) := by
  -- The cell decides for both loops, whatever their bodies are.
  unfold Execution.step
  simp only
  split
  · exact .running ⟨h, rfl⟩
  · exact .running ⟨List.rel_append hbody (.cons (.loop hbody) h), rfl⟩

theorem alongside_step_congruent {e e' : Execution} (h : CongruentRuns e e') :
    Alongside CongruentRuns Eq e.step e'.step := by
  obtain ⟨todo, m⟩ := e
  obtain ⟨todo', m'⟩ := e'
  obtain ⟨htodo, hm⟩ := h
  obtain rfl : m' = m := hm
  cases htodo with
  | nil => exact .stopped rfl
  | @cons s s' rest rest' hs hrest =>
    cases hs with
    | same =>
      cases s with
      | print | input | counted => exact alongside_proceed_congruent hrest _
      | loop body => exact alongside_loop_congruent (Program.congruent_self body) hrest m'
    | change ho ho' hchange =>
      rw [Execution.step_counted, Execution.step_counted,
        Machine.apply_of_congruent ho ho' hchange]
      exact alongside_proceed_congruent hrest _
    | loop hbody => exact alongside_loop_congruent hbody hrest m'

/-- Counts of `+` and `-` matter only modulo 256. -/
theorem cell_counts_matter_modulo_256 {p q : Program} (h : Program.Congruent p q) (m : Machine)
    (n : Nat) :
    (∀ r, m.interpret n p = .stopped r ↔ m.interpret n q = .stopped r) ∧
    ∀ e, m.interpret n p = .running e → ∃ e', m.interpret n q = .running e' ∧
      Program.Congruent e.todo e'.todo ∧ e'.machine = e.machine := by
  have hstart : CongruentRuns ⟨p, m⟩ ⟨q, m⟩ := ⟨h, rfl⟩
  have halong : Alongside CongruentRuns Eq (m.interpret n p) (m.interpret n q) :=
    alongside_follow (fun _ _ => alongside_step_congruent) hstart n
  refine ⟨fun r => ⟨fun hr => ?_, fun hr => ?_⟩, fun e he => ?_⟩
  · rw [hr] at halong
    obtain ⟨r', hr', rfl⟩ := halong.of_stopped
    exact hr'
  · rw [hr] at halong
    obtain ⟨r', hr', rfl⟩ := halong.of_stopped_right
    exact hr'
  · rw [he] at halong
    obtain ⟨e', he', hnext⟩ := halong.of_running
    exact ⟨e', he', hnext.todo, hnext.machine_eq⟩

theorem cell_counts_matter_modulo_256_in_a_loop :
    let p : Program := [.counted .increment 3, .loop [.print, .counted .decrement 1]]
    let q : Program := [.counted .decrement 253, .loop [.print, .counted .increment (2 ^ 64 - 1)]]
    let m := Machine.ofConsole .zero (.ofScripts [] [] [])
    Program.Congruent p q ∧ (m.interpret 13 p matches .stopped _) ∧
      (∀ r, m.interpret 13 p = .stopped r ↔ m.interpret 13 q = .stopped r) ∧
      ∀ e, m.interpret 13 p = .running e → ∃ e', m.interpret 13 q = .running e' ∧
        Program.Congruent e.todo e'.todo ∧ e'.machine = e.machine := by
  intro p q m
  have hbody : Program.Congruent [.print, .counted .decrement 1]
      [.print, .counted .increment (2 ^ 64 - 1)] :=
    .cons .same (.cons (.change (.inr rfl) (.inl rfl) (by decide)) .nil)
  have h : Program.Congruent p q :=
    .cons (.change (.inl rfl) (.inr rfl) (by decide)) (.cons (.loop hbody) .nil)
  have hstops : m.interpret 13 p matches .stopped _ := by decide +kernel
  exact ⟨h, hstops, cell_counts_matter_modulo_256 h m 13⟩

end Brainfuck
