import Brainfuck.Proofs.Calls
import Brainfuck.Proofs.Folding
import Brainfuck.Proofs.Simulation

/-!
# Loops that are never entered

A loop leaves its cell at 0, so a loop directly behind it is passed by, as is one at the start of an
empty tape. A program runs the same without such loops.
-/

namespace Brainfuck

open Progress

namespace Program

/-- One loop that directly follows another in its block is left out, at any depth. -/
inductive LeavesOut : Program → Program → Prop
  | here (before body dead after : Program) :
      LeavesOut (before ++ .loop body :: .loop dead :: after) (before ++ .loop body :: after)
  | within (before after : Program) {body body' : Program} : LeavesOut body body' →
      LeavesOut (before ++ .loop body :: after) (before ++ .loop body' :: after)

/-- The programs cannot be told apart on a machine, neither by their ends nor by the states they
pass through. -/
structure RunsAlike (p q : Program) (m : Machine) : Prop where
  ends_iff : ∀ r, Ends Execution.step ⟨p, m⟩ r ↔ Ends Execution.step ⟨q, m⟩ r
  reached_first : ∀ n, ∃ k ≤ n,
    Execution.reached (m.interpret k q) = Execution.reached (m.interpret n p)
  reached_second : ∀ k, ∃ n ≥ k,
    Execution.reached (m.interpret n p) = Execution.reached (m.interpret k q)

/-! ## Pruned programs -/

/-- The second program lacks some loops that cannot be entered. `zero` tells whether the current
cell is known to be 0 where they begin. -/
inductive Pruned : (zero : Bool) → Program → Program → Prop
  | nil {zero : Bool} : Pruned zero [] []
  | same {zero : Bool} {s : Statement} {p q : Program} : Pruned false p q →
      Pruned zero (s :: p) (s :: q)
  | loop {zero : Bool} {body body' p q : Program} : Pruned false body body' → Pruned true p q →
      Pruned zero (.loop body :: p) (.loop body' :: q)
  | dead {dead p q : Program} : Pruned true p q → Pruned true (.loop dead :: p) q

variable {zero : Bool} {p q rest rest' body body' : Program}

theorem Pruned.of_false (h : Pruned false p q) : Pruned zero p q := by
  cases h with
  | nil => exact .nil
  | same h => exact .same h
  | loop hbody h => exact .loop hbody h

theorem pruned_self (p : Program) : Pruned false p p := by
  induction p with
  | nil => exact .nil
  | cons s p ih => exact .same ih

theorem Pruned.append (h : Pruned zero p q) (hrest : Pruned false rest rest') :
    Pruned zero (p ++ rest) (q ++ rest') := by
  induction h with
  | nil => exact hrest.of_false
  | same _ ih => exact .same ih
  | loop hbody _ _ ih => exact .loop hbody ih
  | dead _ ih => exact .dead ih

theorem pruned_of_leavesOut (h : LeavesOut p q) : Pruned false p q := by
  induction h with
  | here before body dead after =>
    exact (pruned_self before).append (.loop (pruned_self body) (.dead (pruned_self after).of_false))
  | within before after _ ih =>
    exact (pruned_self before).append (.loop ih (pruned_self after).of_false)

end Program

/-! ## Side by side -/

open Program

/-- The machines are the same, and what is known of the current cell is true. -/
structure PrunedRuns (e e' : Execution) : Prop where
  todo : Pruned e.machine.isZero e.todo e'.todo
  machine_eq : e'.machine = e.machine

variable {p q rest rest' body body' : Program}

theorem alongside_proceed_pruned (h : Pruned false rest rest') (x : Except Fault Unit × Machine) :
    Alongside PrunedRuns Eq (Execution.proceed rest x) (Execution.proceed rest' x) := by
  rcases x with ⟨f | ⟨⟩, m⟩
  · exact .stopped rfl
  · exact .running ⟨h.of_false, rfl⟩

theorem alongside_loop_pruned (hbody : Pruned false body body') (h : Pruned true rest rest')
    (m : Machine) :
    Alongside PrunedRuns Eq (Execution.step ⟨.loop body :: rest, m⟩)
      (Execution.step ⟨.loop body' :: rest', m⟩) := by
  unfold Execution.step
  simp only
  split
  · rename_i hzero
    refine .running ⟨?_, rfl⟩
    simpa only [hzero] using h
  · have hagain : Pruned false (body ++ .loop body :: rest) (body' ++ .loop body' :: rest') :=
      hbody.append (.loop hbody h)
    exact .running ⟨hagain.of_false, rfl⟩

theorem stepsOrWaits_pruned (e e' : Execution) (h : PrunedRuns e e') :
    StepsOrWaits Execution.step Execution.step (fun e => e.todo.length) PrunedRuns Eq e e' := by
  obtain ⟨todo, m⟩ := e
  obtain ⟨todo', m'⟩ := e'
  obtain ⟨htodo, hm⟩ := h
  obtain rfl : m' = m := hm
  simp only at htodo
  generalize hzero : m'.isZero = zero at htodo
  cases htodo with
  | nil => exact .inr (.stopped rfl)
  | @same _ s rest rest' hrest =>
    right
    cases s with
    | print | input | counted => exact alongside_proceed_pruned hrest _
    | loop body => exact alongside_loop_pruned (pruned_self body) hrest.of_false m'
  | loop hbody hrest => exact .inr (alongside_loop_pruned hbody hrest m')
  | @dead dead rest _ hrest =>
    -- The dead loop is passed while the other program waits, and one statement fewer is left.
    left
    have hpass : Execution.step ⟨.loop dead :: rest, m'⟩ = .running ⟨rest, m'⟩ := if_pos hzero
    refine ⟨⟨rest, m'⟩, hpass, Nat.lt_succ_self _, ?_, rfl⟩
    simpa only [hzero] using hrest

theorem reached_of_pruned {x y : Progress Execution (Except Fault Unit × Machine)}
    (h : Alongside PrunedRuns Eq x y) : Execution.reached y = Execution.reached x := by
  cases h with
  | running h => exact h.machine_eq
  | stopped h => rw [h]

theorem runsAlike_of_pruned {m : Machine} (h : Pruned m.isZero p q) : RunsAlike p q m := by
  have hstart : PrunedRuns ⟨p, m⟩ ⟨q, m⟩ := ⟨h, rfl⟩
  refine ⟨fun r => ⟨?_, ?_⟩, fun n => ?_, fun k => ?_⟩
  · rintro ⟨n, hn⟩
    obtain ⟨k, -, halong⟩ := exists_le_alongside stepsOrWaits_pruned n hstart
    rw [hn] at halong
    obtain ⟨r', hr', rfl⟩ := halong.of_stopped
    exact ⟨k, hr'⟩
  · rintro ⟨k, hk⟩
    obtain ⟨n, -, halong⟩ := exists_ge_alongside stepsOrWaits_pruned k hstart
    rw [hk] at halong
    obtain ⟨r', hr', rfl⟩ := halong.of_stopped_right
    exact ⟨n, hr'⟩
  · obtain ⟨k, hk, halong⟩ := exists_le_alongside stepsOrWaits_pruned n hstart
    exact ⟨k, hk, reached_of_pruned halong⟩
  · obtain ⟨n, hn, halong⟩ := exists_ge_alongside stepsOrWaits_pruned k hstart
    exact ⟨n, hn, (reached_of_pruned halong).symm⟩

/-! ## At the start of the tape -/

theorem isZero_of_empty {m : Machine} (h : m.tape = .empty) : m.isZero = true := by
  simp [Machine.isZero, Machine.value, h, Tape.get_empty]

theorem runsAlike_of_isZero {m : Machine} (h : m.isZero = true) (body rest : Program) :
    RunsAlike (.loop body :: rest) rest m := by
  refine runsAlike_of_pruned ?_
  rw [h]
  exact .dead (pruned_self rest).of_false

theorem parse_loop_append {c r : String} (hc : parse c = .ok body) (hr : parse r = .ok rest) :
    parse ("[" ++ c ++ "]" ++ r) = .ok (.loop body :: rest) := by
  rw [parse_eq_ok_iff_symbols] at hc hr ⊢
  obtain ⟨hbody, hbodyFolded⟩ := hc
  obtain ⟨hrest, hrestFolded⟩ := hr
  constructor
  · simp [symbols, Statement.symbols, hbody, hrest, Symbol.ofChar?]
  · refine ⟨hbodyFolded, fun t _ => ?_, hrestFolded⟩
    cases t <;> trivial

/-- A loop right behind another one, or at the start, does nothing. -/
theorem loops_that_cannot_be_entered_are_inert :
    (∀ p q : Program, LeavesOut p q → ∀ m, RunsAlike p q m) ∧
    ∀ (c r : String) (body rest : Program), parse c = .ok body → parse r = .ok rest →
      ∃ whole, parse ("[" ++ c ++ "]" ++ r) = .ok whole ∧
        (∀ eof console, RunsAlike whole rest (.ofConsole eof console)) ∧
        ∀ m : Machine, RunsAlike whole rest m.reset := by
  refine ⟨fun p q h m => runsAlike_of_pruned (pruned_of_leavesOut h).of_false, ?_⟩
  intro c r body rest hc hr
  refine ⟨.loop body :: rest, parse_loop_append hc hr, fun eof console => ?_, fun m => ?_⟩
  · exact runsAlike_of_isZero (isZero_of_empty rfl) body rest
  · exact runsAlike_of_isZero (isZero_of_empty rfl) body rest

theorem loops_that_cannot_be_entered_are_inert_in_an_entered_loop :
    let p : Program := [.input, .loop [.print, .counted .decrement 1, .loop [.input], .loop [.print]]]
    let q : Program := [.input, .loop [.print, .counted .decrement 1, .loop [.input]]]
    let m := Machine.ofConsole .zero (.ofScripts [.byte 2, .byte 1] [] [])
    LeavesOut p q ∧ (m.interpret 13 q matches .stopped _) ∧ RunsAlike p q m ∧
      parse "a.[-]" = .ok [.print, .loop [.counted .decrement 1]] ∧
      parse ",b." = .ok [.input, .print] ∧
      ∃ whole, parse ("[" ++ "a.[-]" ++ "]" ++ ",b.") = .ok whole ∧
        RunsAlike whole [.input, .print] m := by
  intro p q m
  have hleft : LeavesOut p q := .within [.input] [] (.here [.print, .counted .decrement 1] _ _ [])
  have hc : parse "a.[-]" = .ok [.print, .loop [.counted .decrement 1]] := by
    rw [parse_eq_ok_iff_symbols]
    exact ⟨by decide, by simp [Program.Folded, Statement.Folded, Statement.Apart]⟩
  have hr : parse ",b." = .ok [.input, .print] := by
    rw [parse_eq_ok_iff_symbols]
    exact ⟨by decide, by simp [Program.Folded, Statement.Folded, Statement.Apart]⟩
  obtain ⟨hinside, hfront⟩ := loops_that_cannot_be_entered_are_inert
  obtain ⟨whole, hwhole, hnew, -⟩ := hfront _ _ _ _ hc hr
  exact ⟨hleft, by decide +kernel, hinside p q hleft m, hc, hr, whole, hwhole, hnew _ _⟩

end Brainfuck
