import Brainfuck.Proofs.Calls
import Brainfuck.Proofs.Counts
import Brainfuck.Proofs.Passage
import Mathlib.Tactic.Ring

/-!
# The pointer of a run

The pointer is the exact sum of the distances that the shifts of a run stand for. A shift that
cannot be made stops the run and moves nothing.
-/

namespace Brainfuck

open Progress

/-! ## Distances -/

/-- The distance that a count of 64 bits stands for. From 2^63 on it is negative. -/
def distance (count : Nat) : Int := if count < 2 ^ 63 then count else count - 2 ^ 64

theorem signedWord_eq_distance {n : Nat} (h : n < 2 ^ 64) : signedWord n = distance n := by
  unfold distance
  split
  · exact signedWord_eq_self (by omega)
  · exact signedWord_eq_sub (by omega) h

theorem distance_eq_self {n : Nat} (h : n < 2 ^ 63) : distance n = n := if_pos h

theorem inWord_neg_distance_iff {n : Nat} (h : n < 2 ^ 64) : inWord (-distance n) ↔ n ≠ 2 ^ 63 := by
  unfold inWord distance
  split <;> omega

namespace Execution

/-- How far the next step is to move the pointer. -/
def move (e : Execution) : Int :=
  match e.todo with
  | .counted .shiftRight n :: _ => distance n
  | .counted .shiftLeft n :: _ => -distance n
  | _ => 0

/-- The same as it is written: to the right by the count, or to the left. -/
def writtenMove (e : Execution) : Int :=
  match e.todo with
  | .counted .shiftRight n :: _ => n
  | .counted .shiftLeft n :: _ => -n
  | _ => 0

/-- The next step is a shift. -/
inductive Shifts : Execution → Prop
  | right {n : Nat} {rest : Program} {m : Machine} : Shifts ⟨.counted .shiftRight n :: rest, m⟩
  | left {n : Nat} {rest : Program} {m : Machine} : Shifts ⟨.counted .shiftLeft n :: rest, m⟩

/-- The next step is the shift to the left whose distance cannot be negated. -/
def Unnegatable (e : Execution) : Prop := e.todo.head? = some (.counted .shiftLeft (2 ^ 63))

theorem Unnegatable.shifts {e : Execution} (h : e.Unnegatable) : e.Shifts := by
  obtain ⟨todo, m⟩ := e
  obtain ⟨rest, htodo⟩ := List.head?_eq_some_iff.1 h
  obtain rfl : todo = _ := htodo
  exact .left

/-- The overflow that a run has stopped with. -/
def overflow? : Progress Execution (Except Fault Unit × Machine) → Option Overflow
  | .stopped (.error (.overflow o), _) => some o
  | _ => none

/-! ## One step -/

/-- What a step does to the pointer. -/
inductive Moves (e : Execution) : Progress Execution (Except Fault Unit × Machine) → Prop
  | unnegatable : e.Unnegatable → Moves e (.stopped (.error (.overflow .negate), e.machine))
  | outside : e.Shifts → ¬e.Unnegatable → ¬inWord (e.machine.pointer + e.move) →
      Moves e (.stopped (.error (.overflow .add), e.machine))
  | moved {run : Progress Execution (Except Fault Unit × Machine)} : ¬e.Unnegatable →
      (e.Shifts → inWord (e.machine.pointer + e.move)) → overflow? run = none →
      (reached run).pointer = e.machine.pointer + e.move → Moves e run

variable {e : Execution} {rest : Program} {m : Machine} {n : Nat}

theorem overflow?_proceed_mapError (rest : Program) (x : Except IoError Unit) (m : Machine) :
    overflow? (proceed rest (x.mapError .io, m)) = none := by
  rcases x with y | ⟨⟩ <;> rfl

theorem moves_of_not_shifts {run : Progress Execution (Except Fault Unit × Machine)}
    (hs : ¬e.Shifts) (hu : ¬e.Unnegatable) (hmove : e.move = 0) (hrun : overflow? run = none)
    (hpointer : (reached run).pointer = e.machine.pointer) : Moves e run := by
  refine .moved hu (fun h => absurd h hs) hrun ?_
  rw [hpointer, hmove, Int.add_zero]

theorem moves_of_shift {d : Int} (hd : d = move e) (hs : e.Shifts) (hu : ¬e.Unnegatable) :
    Moves e (proceed rest (e.machine.shift d)) := by
  subst hd
  by_cases hin : inWord (e.machine.pointer + e.move)
  · rw [Machine.shift_of_inWord hin]
    exact .moved hu (fun _ => hin) rfl rfl
  · rw [Machine.shift_of_not_inWord hin]
    exact .outside hs hu hin

theorem moves_shiftRight (hn : n < 2 ^ 64) :
    Moves ⟨.counted .shiftRight n :: rest, m⟩ (step ⟨.counted .shiftRight n :: rest, m⟩) := by
  rw [step_counted, Machine.apply, signedWord_eq_distance hn]
  exact moves_of_shift rfl .right (by simp [Unnegatable])

theorem moves_shiftLeft (hn : n < 2 ^ 64) :
    Moves ⟨.counted .shiftLeft n :: rest, m⟩ (step ⟨.counted .shiftLeft n :: rest, m⟩) := by
  have hneg := inWord_neg_distance_iff hn
  rw [step_counted, Machine.apply, signedWord_eq_distance hn]
  by_cases h : n = 2 ^ 63
  · rw [if_neg (by rw [hneg]; exact not_not.2 h), h]
    exact .unnegatable rfl
  · rw [if_pos (hneg.2 h)]
    exact moves_of_shift rfl .left (by simpa [Unnegatable] using h)

theorem moves_step (h : Program.EveryCount (· < 2 ^ 64) e.todo) : Moves e e.step := by
  obtain ⟨todo, m⟩ := e
  cases todo with
  | nil =>
    refine moves_of_not_shifts (by rintro ⟨⟩) (by simp [Unnegatable]) rfl ?_ ?_
    · rw [step_end, Machine.flush_eq]
      rcases m.console.flush.1 with y | ⟨⟩ <;> rfl
    · rw [step_end]
      exact m.pointer_flush
  | cons s rest =>
    cases s with
    | print =>
      refine moves_of_not_shifts (by rintro ⟨⟩) (by simp [Unnegatable]) rfl ?_ ?_
      · rw [step_print, Machine.write_eq, overflow?_proceed_mapError]
      · rw [step_print, reached_proceed]
        exact m.pointer_write
    | input =>
      refine moves_of_not_shifts (by rintro ⟨⟩) (by simp [Unnegatable]) rfl ?_ ?_
      · rw [step_input]
        cases hf : m.console.nextFlush with
        | done => rw [Machine.read_of_flushed hf, overflow?_proceed_mapError]
        | failed x =>
          rw [Machine.read_of_refused hf]
          rfl
      · rw [reached_step_input]
        exact m.pointer_read
    | loop body =>
      refine moves_of_not_shifts (by rintro ⟨⟩) (by simp [Unnegatable]) rfl ?_ ?_
      · unfold step
        simp only
        split <;> rfl
      · rw [reached_step_loop]
    | counted o n =>
      have hn : n < 2 ^ 64 := h.1
      cases o with
      | shiftRight => exact moves_shiftRight hn
      | shiftLeft => exact moves_shiftLeft hn
      | increment => exact moves_of_not_shifts (by rintro ⟨⟩) (by simp [Unnegatable]) rfl rfl rfl
      | decrement => exact moves_of_not_shifts (by rintro ⟨⟩) (by simp [Unnegatable]) rfl rfl rfl

/-! ### The statements to come -/

theorem todo_of_proceed {x : Except Fault Unit × Machine} {next : Execution}
    (h : proceed rest x = .running next) : next.todo = rest := by
  rcases x with ⟨f | ⟨⟩, m⟩
  · contradiction
  · cases h
    rfl

theorem todo_of_running {next : Execution} (h : e.step = .running next) :
    (∃ s, e.todo = s :: next.todo) ∨
      ∃ body rest, e.todo = .loop body :: rest ∧ next.todo = body ++ .loop body :: rest := by
  obtain ⟨todo, m⟩ := e
  cases todo with
  | nil =>
    rw [step_end] at h
    contradiction
  | cons s rest =>
    cases s with
    | print => exact .inl ⟨.print, by rw [todo_of_proceed h]⟩
    | input => exact .inl ⟨.input, by rw [todo_of_proceed h]⟩
    | counted o n => exact .inl ⟨.counted o n, by rw [todo_of_proceed h]⟩
    | loop body =>
      unfold step at h
      simp only at h
      split at h
      · cases h
        exact .inl ⟨.loop body, rfl⟩
      · cases h
        exact .inr ⟨body, rest, rfl, rfl⟩

theorem everyCount_of_running {P : Nat → Prop} {next : Execution}
    (h : Program.EveryCount P e.todo) (hstep : e.step = .running next) :
    Program.EveryCount P next.todo := by
  rcases todo_of_running hstep with ⟨s, htodo⟩ | ⟨body, rest, htodo, hnext⟩
  · rw [htodo] at h
    exact h.2
  · rw [htodo] at h
    rw [hnext, Program.everyCount_append]
    exact ⟨h.1, h⟩

end Execution

/-! ## The whole run -/

open Execution

/-- Where the pointer is after the steps by exact integer arithmetic. -/
def exactPointer (m : Machine) (executed : List Execution) : Int :=
  m.pointer + (executed.map move).sum

theorem exactPointer_concat (m : Machine) (executed : List Execution) (e : Execution) :
    exactPointer m (executed ++ [e]) = exactPointer m executed + e.move := by
  simp [exactPointer, Int.add_assoc]

/-- One of the steps is a shift after which the exact pointer is no word. -/
def LeavesWord (m : Machine) (executed : List Execution) : Prop :=
  ∃ before e after, executed = before ++ e :: after ∧ e.Shifts ∧ ¬e.Unnegatable ∧
    ¬inWord (exactPointer m (before ++ [e]))

theorem leavesWord_concat {m : Machine} {executed : List Execution} {e : Execution} :
    LeavesWord m (executed ++ [e]) ↔ LeavesWord m executed ∨
      (e.Shifts ∧ ¬e.Unnegatable ∧ ¬inWord (exactPointer m executed + e.move)) := by
  rw [← exactPointer_concat]
  constructor
  · rintro ⟨before, d, after, heq, hd⟩
    rcases concat_eq_append_cons_iff.1 heq with ⟨rfl, rfl, -⟩ | ⟨after, rfl, -⟩
    · exact .inr hd
    · exact .inl ⟨before, d, after, rfl, hd⟩
  · rintro (⟨before, d, after, rfl, hd⟩ | he)
    · exact ⟨before, d, after ++ [e], by simp, hd⟩
    · exact ⟨executed, e, [], rfl, he⟩

/-- What has become of the pointer after the steps: it is where they lead, or the last of them was a
shift that could not be made. -/
inductive PointerAfter (m : Machine) :
    List Execution → Progress Execution (Except Fault Unit × Machine) → Prop
  | exact {executed : List Execution} {run : Progress Execution (Except Fault Unit × Machine)} :
      overflow? run = none → (reached run).pointer = exactPointer m executed →
      (∀ e ∈ executed, ¬e.Unnegatable) → ¬LeavesWord m executed → PointerAfter m executed run
  | unnegatable {before : List Execution} {e : Execution} :
      e.Unnegatable → e.machine.pointer = exactPointer m before → ¬LeavesWord m before →
      PointerAfter m (before ++ [e]) (.stopped (.error (.overflow .negate), e.machine))
  | outside {before : List Execution} {e : Execution} :
      e.Shifts → ¬e.Unnegatable → ¬inWord (exactPointer m before + e.move) →
      e.machine.pointer = exactPointer m before → (∀ d ∈ before, ¬d.Unnegatable) →
      PointerAfter m (before ++ [e]) (.stopped (.error (.overflow .add), e.machine))

theorem PointerAfter.step {m : Machine} {executed : List Execution} {e : Execution}
    (h : PointerAfter m executed (.running e)) (hcounts : Program.EveryCount (· < 2 ^ 64) e.todo) :
    PointerAfter m (executed ++ [e]) e.step := by
  cases h with
  | exact _ hpointer hneg hword =>
    have hnow : e.machine.pointer = exactPointer m executed := hpointer
    generalize hrun : e.step = run
    have hmoves := moves_step hcounts
    rw [hrun] at hmoves
    cases hmoves with
    | unnegatable hu => exact .unnegatable hu hnow hword
    | outside hs hu hout => exact .outside hs hu (hnow ▸ hout) hnow hneg
    | moved hu hin hover hmoved =>
      rw [hnow] at hin hmoved
      refine .exact hover (hmoved.trans (exactPointer_concat m executed e).symm) ?_ ?_
      · intro d hd
        rcases List.mem_append.1 hd with hd | hd
        · exact hneg d hd
        · rwa [List.mem_singleton.1 hd]
      · rw [leavesWord_concat]
        rintro (hleft | ⟨hs, -, hout⟩)
        · exact hword hleft
        · exact hout (hin hs)

theorem pointerAfter_interpret (p : Program) (m : Machine) (n : Nat)
    (h : Program.EveryCount (· < 2 ^ 64) p) :
    PointerAfter m (passed Execution.step n ⟨p, m⟩) (m.interpret n p) := by
  refine And.left (passed_induction Execution.step ⟨p, m⟩
    (P := fun executed run => PointerAfter m executed run ∧
      ∀ e, run = .running e → Program.EveryCount (· < 2 ^ 64) e.todo) ?_ ?_ n)
  · refine ⟨.exact rfl (by simp [exactPointer, reached]) (by simp) ?_, ?_⟩
    · rintro ⟨before, e, after, heq, -⟩
      simp at heq
    · rintro e ⟨⟩
      exact h
  · rintro executed e ⟨hpointer, hcounts⟩
    exact ⟨hpointer.step (hcounts e rfl), fun _ => everyCount_of_running (hcounts e rfl)⟩

/-! ### How a run stops -/

section Stops

variable {m : Machine} {executed : List Execution}
  {run : Progress Execution (Except Fault Unit × Machine)}

theorem PointerAfter.overflow?_eq_negate_iff (h : PointerAfter m executed run) :
    overflow? run = some .negate ↔ ∃ e ∈ executed, e.Unnegatable := by
  cases h with
  | exact hover _ hneg =>
    rw [hover]
    refine ⟨by rintro ⟨⟩, ?_⟩
    rintro ⟨e, he, hu⟩
    exact absurd hu (hneg e he)
  | @unnegatable before e hu => exact ⟨fun _ => ⟨e, by simp, hu⟩, fun _ => rfl⟩
  | outside hs hu _ _ hneg =>
    refine ⟨by rintro ⟨⟩, ?_⟩
    rintro ⟨d, hd, hdu⟩
    rcases List.mem_append.1 hd with hd | hd
    · exact absurd hdu (hneg d hd)
    · rw [List.mem_singleton.1 hd] at hdu
      exact absurd hdu hu

theorem PointerAfter.overflow?_eq_add_iff (h : PointerAfter m executed run) :
    overflow? run = some .add ↔ LeavesWord m executed := by
  cases h with
  | exact hover _ _ hword =>
    rw [hover]
    exact ⟨by rintro ⟨⟩, fun hleft => absurd hleft hword⟩
  | unnegatable hu _ hword =>
    rw [leavesWord_concat]
    refine ⟨by rintro ⟨⟩, ?_⟩
    rintro (hleft | ⟨-, hnot, -⟩)
    · exact absurd hleft hword
    · exact absurd hu hnot
  | outside hs hu hout =>
    rw [leavesWord_concat]
    exact ⟨fun _ => .inr ⟨hs, hu, hout⟩, fun _ => rfl⟩

theorem PointerAfter.overflow?_ne_subtract (h : PointerAfter m executed run) :
    overflow? run ≠ some .subtract := by
  cases h with
  | exact hover =>
    rw [hover]
    rintro ⟨⟩
  | unnegatable => rintro ⟨⟩
  | outside => rintro ⟨⟩

theorem PointerAfter.of_overflow {o : Overflow} {m₁ : Machine}
    (h : PointerAfter m executed (.stopped (.error (.overflow o), m₁))) :
    ∃ before e, executed = before ++ [e] ∧ e.Shifts ∧ m₁ = e.machine ∧
      m₁.pointer = exactPointer m before := by
  cases h with
  | exact hover => cases hover
  | @unnegatable before e hu hpointer => exact ⟨before, e, rfl, hu.shifts, rfl, hpointer⟩
  | @outside before e hs _ _ hpointer => exact ⟨before, e, rfl, hs, rfl, hpointer⟩

theorem PointerAfter.pointer_eq (h : PointerAfter m executed run) (hover : overflow? run = none) :
    (reached run).pointer = exactPointer m executed := by
  cases h with
  | exact _ hpointer => exact hpointer
  | unnegatable => cases hover
  | outside => cases hover

end Stops

/-! ### Programs from text -/

theorem Execution.move_eq_writtenMove {e : Execution}
    (h : Program.EveryCount (fun n => distance n = n) e.todo) : e.move = e.writtenMove := by
  obtain ⟨todo, m⟩ := e
  rcases todo with _ | ⟨_ | _ | ⟨_ | _ | _ | _, n⟩ | body, rest⟩
  case cons.counted.shiftLeft => exact congrArg Neg.neg h.1
  case cons.counted.shiftRight => exact h.1
  all_goals rfl

theorem distance_eq_of_parse {text : String} {p : Program} (hlen : text.length < 2 ^ 61)
    (h : parse text = .ok p) : Program.EveryCount (fun n => distance n = n) p :=
  (everyCount_of_parse (Nat.le_of_lt hlen) h).mono fun _ hn => distance_eq_self (by omega)

theorem not_unnegatable_of_distance_eq {e : Execution}
    (h : Program.EveryCount (fun n => distance n = n) e.todo) : ¬e.Unnegatable := by
  intro hu
  obtain ⟨rest, htodo⟩ := List.head?_eq_some_iff.1 hu
  rw [htodo] at h
  have hself : distance (2 ^ 63) = (2 ^ 63 : Nat) := h.1
  exact absurd hself (by decide)

/-- The pointer is the exact sum of all shifts, or the run stops. -/
theorem pointer_is_exact_or_run_stops (p : Program) (m : Machine) (n : Nat)
    (h : Program.EveryCount (· < 2 ^ 64) p) :
    let executed := passed Execution.step n ⟨p, m⟩
    let run := m.interpret n p
    (overflow? run = some .negate ↔ ∃ e ∈ executed, e.Unnegatable) ∧
    (overflow? run = some .add ↔ LeavesWord m executed) ∧
    overflow? run ≠ some .subtract ∧
    (∀ o m₁, run = .stopped (.error (.overflow o), m₁) → ∃ before e, executed = before ++ [e] ∧
      e.Shifts ∧ m₁ = e.machine ∧ m₁.pointer = exactPointer m before) ∧
    (overflow? run = none → (reached run).pointer = exactPointer m executed) ∧
    ∀ text, text.length < 2 ^ 61 → parse text = .ok p →
      Program.EveryCount (fun n => distance n = n) p ∧
      (∀ e ∈ executed, e.move = e.writtenMove) ∧ overflow? run ≠ some .negate := by
  intro executed run
  have hafter : PointerAfter m executed run := pointerAfter_interpret p m n h
  refine ⟨hafter.overflow?_eq_negate_iff, hafter.overflow?_eq_add_iff,
    hafter.overflow?_ne_subtract, ?_, hafter.pointer_eq, ?_⟩
  · intro o m₁ hrun
    rw [hrun] at hafter
    exact hafter.of_overflow
  · intro text hlen hparse
    have hcounts := distance_eq_of_parse hlen hparse
    -- A run carries out statements of its program only, so their counts stay exact.
    have hall : ∀ e ∈ executed, Program.EveryCount (fun n => distance n = n) e.todo :=
      forall_mem_passed (s := ⟨p, m⟩) (fun _ _ => everyCount_of_running) hcounts n
    refine ⟨hcounts, fun e he => move_eq_writtenMove (hall e he), ?_⟩
    rw [ne_eq, hafter.overflow?_eq_negate_iff]
    rintro ⟨e, he, hu⟩
    exact not_unnegatable_of_distance_eq (hall e he) hu

theorem pointer_is_exact_or_run_stops_in_a_loop :
    let p : Program := [.counted .shiftRight (2 ^ 64 - 1), .counted .increment 256,
      .counted .increment 1, .loop [.counted .shiftLeft (2 ^ 63)]]
    let m := Machine.ofConsole .zero (.ofScripts [] [] [])
    Program.EveryCount (· < 2 ^ 64) p ∧ overflow? (m.interpret 5 p) = some .negate ∧
      (∃ e ∈ passed Execution.step 5 ⟨p, m⟩, e.Unnegatable) ∧
      (reached (m.interpret 4 p)).pointer = exactPointer m (passed Execution.step 4 ⟨p, m⟩) ∧
      exactPointer m (passed Execution.step 4 ⟨p, m⟩) = -1 := by
  intro p m
  have hcounts : Program.EveryCount (· < 2 ^ 64) p := by
    simp [p, Program.EveryCount, Statement.EveryCount]
  -- The sum would be a word again, but the distance `2 ^ 63` cannot be negated.
  have hnegate : overflow? (m.interpret 5 p) = some .negate := by decide +kernel
  have hnone : overflow? (m.interpret 4 p) = none := by decide +kernel
  obtain ⟨-, -, -, -, hexact, -⟩ := pointer_is_exact_or_run_stops p m 4 hcounts
  refine ⟨hcounts, hnegate, ?_, hexact hnone, ?_⟩
  · exact (pointer_is_exact_or_run_stops p m 5 hcounts).1.1 hnegate
  · rw [← hexact hnone]
    decide +kernel

end Brainfuck
