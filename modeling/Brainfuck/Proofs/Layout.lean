import Brainfuck.Proofs.Pointer
import Brainfuck.Proofs.Repetition
import Brainfuck.Proofs.WrittenCells

/-!
# Other layouts of the tape

A tape may begin elsewhere, and its indices may go the other way. A program that is turned with the
tape does there what it did before: no place of the tape is special, and no direction.
-/

namespace Brainfuck

open Progress

/-- Which way the indices of a tape go. -/
inductive Direction where
  | kept
  | reversed
deriving DecidableEq, Repr

def Direction.sign : Direction → Int
  | kept => 1
  | reversed => -1

structure Layout where
  direction : Direction
  /-- Where the index 0 comes to lie. -/
  origin : Int
deriving DecidableEq, Repr

namespace Layout

/-- Where an index comes to lie. -/
def index (l : Layout) (i : Int) : Int := l.direction.sign * i + l.origin

variable {l : Layout} {i j : Int}

theorem index_inj : l.index i = l.index j ↔ i = j := by
  unfold index Direction.sign
  split <;> omega

theorem exists_index_eq (l : Layout) (j : Int) : ∃ i, l.index i = j := by
  refine ⟨l.direction.sign * (j - l.origin), ?_⟩
  unfold index Direction.sign
  split <;> omega

theorem index_add (l : Layout) (i d : Int) :
    l.index i + l.direction.sign * d = l.index (i + d) := by
  unfold index
  rw [Int.mul_add]
  omega

end Layout

/-! ## Tapes -/

namespace Tape

/-- The tape that holds at each index what this one holds where the index has come from. -/
def laidOut (l : Layout) (t : Tape) : Tape :=
  ⟨.ofList (t.cells.toList.map fun c => (l.index c.1, c.2))⟩

variable {l : Layout} {t : Tape} {i : Int}

theorem distinct_laidOut (l : Layout) (t : Tape) :
    (t.cells.toList.map fun c => (l.index c.1, c.2)).Pairwise
      fun a b => ¬compare a.1 b.1 = .eq := by
  rw [List.pairwise_map]
  refine t.cells.distinct_keys_toList.imp ?_
  intro a b hab h
  rw [compare_eq_iff_eq, Layout.index_inj] at h
  exact hab (compare_eq_iff_eq.2 h)

theorem getElem?_laidOut (l : Layout) (t : Tape) (i : Int) :
    (t.laidOut l).cells[l.index i]? = t.cells[i]? := by
  unfold laidOut
  cases h : t.cells[i]? with
  | some v =>
    refine Std.ExtTreeMap.getElem?_ofList_of_mem (compare_eq_iff_eq.2 rfl) (distinct_laidOut l t) ?_
    rw [← Std.ExtTreeMap.mem_toList_iff_getElem?_eq_some] at h
    exact List.mem_map_of_mem h
  | none =>
    apply Std.ExtTreeMap.getElem?_ofList_of_contains_eq_false
    rw [List.contains_eq_mem, decide_eq_false_iff_not]
    intro hmem
    simp only [List.map_map, List.mem_map, Function.comp_apply] at hmem
    obtain ⟨⟨j, v⟩, hc, hj⟩ := hmem
    obtain rfl : j = i := Layout.index_inj.1 hj
    rw [Std.ExtTreeMap.mem_toList_iff_getElem?_eq_some, h] at hc
    contradiction

theorem get_laidOut (l : Layout) (t : Tape) (i : Int) :
    (t.laidOut l).get (l.index i) = t.get i := by
  unfold get
  rw [Std.ExtTreeMap.getD_eq_getD_getElem?, getElem?_laidOut, Std.ExtTreeMap.getD_eq_getD_getElem?]

theorem mem_cells_laidOut : l.index i ∈ (t.laidOut l).cells ↔ i ∈ t.cells := by
  rw [Std.ExtTreeMap.mem_iff_isSome_getElem?, getElem?_laidOut,
    Std.ExtTreeMap.mem_iff_isSome_getElem?]

theorem touched_laidOut (l : Layout) (t : Tape) : (t.laidOut l).touched = t.touched := by
  unfold touched laidOut
  rw [Std.ExtTreeMap.size_ofList (distinct_laidOut l t), List.length_map,
    Std.ExtTreeMap.length_toList]

theorem set_laidOut (l : Layout) (t : Tape) (i : Int) (v : UInt8) :
    (t.laidOut l).set (l.index i) v = (t.set i v).laidOut l := by
  apply ext_getElem?
  intro k
  obtain ⟨j, rfl⟩ := l.exists_index_eq k
  rw [getElem?_laidOut]
  unfold set
  simp only [Std.ExtTreeMap.getElem?_insert, getElem?_laidOut, compare_eq_iff_eq, Layout.index_inj]

end Tape

/-! ## Machines -/

/-- The pointer of an event comes to lie elsewhere. -/
def Event.laidOut (l : Layout) : Event → Event
  | inputExhausted eof pointer => inputExhausted eof (l.index pointer)
  | e => e

namespace Machine

def laidOut (l : Layout) (m : Machine) : Machine :=
  { m with
    pointer := l.index m.pointer
    tape := m.tape.laidOut l
    log := m.log.map (Event.laidOut l) }

variable {l : Layout} {m : Machine}

theorem value_laidOut (l : Layout) (m : Machine) : (m.laidOut l).value = m.value :=
  m.tape.get_laidOut l m.pointer

theorem setValue_laidOut (l : Layout) (m : Machine) (v : UInt8) :
    (m.laidOut l).setValue v = (m.setValue v).laidOut l := by
  unfold setValue laidOut
  rw [Tape.set_laidOut]

theorem flush_laidOut (l : Layout) (m : Machine) :
    (m.laidOut l).flush = (m.flush.1, m.flush.2.laidOut l) := by
  rw [flush_eq, flush_eq]
  rfl

theorem write_laidOut (l : Layout) (m : Machine) :
    (m.laidOut l).write = (m.write.1, m.write.2.laidOut l) := by
  rw [write_eq, write_eq, value_laidOut]
  rfl

theorem record_laidOut (l : Layout) (m : Machine) (e : Event) :
    (m.laidOut l).record (e.laidOut l) = (m.record e).laidOut l := by
  unfold record laidOut
  rw [Array.map_push]

theorem atEnd_laidOut (l : Layout) (m : Machine) : (m.laidOut l).atEnd = m.atEnd.laidOut l := by
  have hrecord := m.record_laidOut l (.inputExhausted m.eof m.pointer)
  have heof : (m.laidOut l).eof = m.eof := rfl
  cases h : m.eof.stored? with
  | none =>
    rw [atEnd_of_unstored h, atEnd_of_unstored (heof ▸ h), ← hrecord]
    rfl
  | some v =>
    rw [atEnd_of_stored h, atEnd_of_stored (heof ▸ h), ← setValue_laidOut, ← hrecord]
    rfl

theorem receive_laidOut (l : Layout) (m : Machine) (x : Except IoError (Option UInt8)) :
    (m.laidOut l).receive x = (m.receive x).laidOut l := by
  rcases x with e | _ | b
  · rfl
  · exact m.atEnd_laidOut l
  · exact m.setValue_laidOut l b

theorem read_laidOut (l : Layout) (m : Machine) :
    (m.laidOut l).read = (m.read.1, m.read.2.laidOut l) := by
  have hconsole : (m.laidOut l).console = m.console := rfl
  cases hf : m.console.nextFlush with
  | done =>
    rw [read_of_flushed hf, read_of_flushed (hconsole ▸ hf), ← receive_laidOut]
    rfl
  | failed e =>
    rw [read_of_refused hf, read_of_refused (hconsole ▸ hf)]
    rfl

theorem shift_laidOut {d : Int} (h : inWord (m.pointer + d))
    (h' : inWord (l.index (m.pointer + d))) :
    (m.laidOut l).shift (l.direction.sign * d) = ((m.shift d).1, (m.shift d).2.laidOut l) := by
  have hpointer : (m.laidOut l).pointer + l.direction.sign * d = l.index (m.pointer + d) :=
    l.index_add m.pointer d
  rw [shift_of_inWord h, shift_of_inWord (hpointer ▸ h'), hpointer]
  rfl

end Machine

/-! ## Programs -/

/-- The operator that does on a tape laid out in this direction what the given one did before. -/
def Operator.turned (d : Direction) : Operator → Operator
  | .shiftLeft => if d = .reversed then .shiftRight else .shiftLeft
  | .shiftRight => if d = .reversed then .shiftLeft else .shiftRight
  | .increment => .increment
  | .decrement => .decrement

mutual

def Statement.turned (d : Direction) : Statement → Statement
  | .print => .print
  | .input => .input
  | .counted o count => .counted (o.turned d) count
  | .loop body => .loop (Program.turned d body)

/-- The same program, with all shifts to the left and to the right exchanged if the tape is
reversed. -/
def Program.turned (d : Direction) : Program → Program
  | [] => []
  | s :: rest => s.turned d :: Program.turned d rest

end

theorem Program.turned_append (d : Direction) (p q : Program) :
    turned d (p ++ q) = turned d p ++ turned d q := by
  induction p with
  | nil => rfl
  | cons s p ih => simp [turned, ih]

/-! ## Operators -/

namespace Machine

variable {l : Layout} {m : Machine} {n : Nat}

theorem apply_turned_shiftRight (d : Direction) (hn : n < 2 ^ 63) (m : Machine) :
    m.apply (Operator.turned d .shiftRight) n = m.shift (d.sign * n) := by
  cases d with
  | kept => exact (apply_shiftRight hn m).trans (by rw [Int.mul_comm, Direction.sign])
  | reversed => exact (apply_shiftLeft hn m).trans (by rw [Int.mul_comm, Direction.sign])

theorem apply_turned_shiftLeft (d : Direction) (hn : n < 2 ^ 63) (m : Machine) :
    m.apply (Operator.turned d .shiftLeft) n = m.shift (d.sign * -n) := by
  cases d with
  | kept => exact (apply_shiftLeft hn m).trans (by rw [Direction.sign]; congr 1; omega)
  | reversed => exact (apply_shiftRight hn m).trans (by rw [Direction.sign]; congr 1; omega)

theorem apply_laidOut {o : Operator} (rest : Program) (hn : n < 2 ^ 63)
    (h : inWord (m.pointer + Execution.move ⟨.counted o n :: rest, m⟩))
    (h' : inWord (l.index (m.pointer + Execution.move ⟨.counted o n :: rest, m⟩))) :
    (m.laidOut l).apply (o.turned l.direction) n =
      ((m.apply o n).1, (m.apply o n).2.laidOut l) := by
  -- A count below `2 ^ 63` is its own distance, which has a negative.
  have hdistance : distance n = n := distance_eq_self hn
  cases o with
  | increment =>
    have hadd : (m.laidOut l).add n = (m.add n).laidOut l := by
      unfold add
      rw [value_laidOut, setValue_laidOut]
    exact congrArg (Prod.mk (Except.ok ())) hadd
  | decrement =>
    have hsub : (m.laidOut l).sub n = (m.sub n).laidOut l := by
      unfold sub
      rw [value_laidOut, setValue_laidOut]
    exact congrArg (Prod.mk (Except.ok ())) hsub
  | shiftRight =>
    change inWord (m.pointer + distance n) at h
    change inWord (l.index (m.pointer + distance n)) at h'
    rw [hdistance] at h h'
    rw [apply_turned_shiftRight _ hn, apply_shiftRight hn, Int.mul_one, shift_laidOut h h']
  | shiftLeft =>
    change inWord (m.pointer + -distance n) at h
    change inWord (l.index (m.pointer + -distance n)) at h'
    rw [hdistance] at h h'
    rw [apply_turned_shiftLeft _ hn, apply_shiftLeft hn, Int.mul_neg_one, shift_laidOut h h']

end Machine

/-! ## Runs -/

namespace Execution

def laidOut (l : Layout) (e : Execution) : Execution :=
  ⟨Program.turned l.direction e.todo, e.machine.laidOut l⟩

/-- Every value that the pointer is to take in the first `steps` steps is a word. -/
def MeetsWords (steps : Nat) (e : Execution) : Prop :=
  ∀ d ∈ passed step steps e, inWord (d.machine.pointer + d.move)

instance (steps : Nat) (e : Execution) : Decidable (MeetsWords steps e) :=
  inferInstanceAs (Decidable (∀ d ∈ passed step steps e, inWord (d.machine.pointer + d.move)))

variable {l : Layout} {e : Execution} {n : Nat}

theorem MeetsWords.now (h : e.MeetsWords (n + 1)) : inWord (e.machine.pointer + e.move) := by
  apply h
  unfold passed
  split <;> exact List.mem_cons_self

theorem MeetsWords.later {next : Execution} (h : e.MeetsWords (n + 1))
    (hstep : e.step = .running next) : next.MeetsWords n := by
  intro d hd
  apply h
  rw [passed_of_running hstep]
  exact List.mem_cons_of_mem e hd

theorem move_laidOut (l : Layout) (e : Execution) :
    (e.laidOut l).move = l.direction.sign * e.move := by
  obtain ⟨todo, m⟩ := e
  rcases todo with _ | ⟨_ | _ | ⟨_ | _ | _ | _, n⟩ | body, rest⟩
  case cons.counted.shiftLeft | cons.counted.shiftRight =>
    obtain ⟨d, origin⟩ := l
    cases d <;> simp [laidOut, move, Program.turned, Statement.turned, Operator.turned,
      Direction.sign]
  all_goals exact (Int.mul_zero _).symm

abbrev laidOutRun (l : Layout) (run : Progress Execution (Except Fault Unit × Machine)) :
    Progress Execution (Except Fault Unit × Machine) :=
  run.map (laidOut l) fun r => (r.1, r.2.laidOut l)

theorem proceed_laidOut (l : Layout) (rest : Program) (x : Except Fault Unit × Machine) :
    proceed (Program.turned l.direction rest) (x.1, x.2.laidOut l) =
      laidOutRun l (proceed rest x) := by
  rcases x with ⟨f | ⟨⟩, m⟩ <;> rfl

theorem step_laidOut (hcounts : Program.EveryCount (· < 2 ^ 63) e.todo)
    (h : inWord (e.machine.pointer + e.move))
    (h' : inWord (l.index (e.machine.pointer + e.move))) :
    (e.laidOut l).step = laidOutRun l e.step := by
  obtain ⟨todo, m⟩ := e
  unfold laidOut
  cases todo with
  | nil =>
    rw [Program.turned, step_end, step_end, Machine.flush_laidOut]
    rfl
  | cons s rest =>
    rw [Program.turned]
    cases s with
    | print =>
      rw [Statement.turned, step_print, step_print, Machine.write_laidOut, proceed_laidOut]
    | input => rw [Statement.turned, step_input, step_input, Machine.read_laidOut, proceed_laidOut]
    | counted o n =>
      rw [Statement.turned, step_counted, step_counted, Machine.apply_laidOut rest hcounts.1 h h',
        proceed_laidOut]
    | loop body =>
      have hzero : (m.laidOut l).isZero = m.isZero := by
        unfold Machine.isZero
        rw [Machine.value_laidOut]
      unfold step
      simp only [Statement.turned, hzero]
      split
      · rfl
      · unfold laidOutRun Progress.map laidOut
        simp only [Program.turned_append, Program.turned, Statement.turned]

theorem follow_laidOut (hcounts : Program.EveryCount (· < 2 ^ 63) e.todo) (h : e.MeetsWords n)
    (h' : (e.laidOut l).MeetsWords n) :
    follow step n (e.laidOut l) = laidOutRun l (follow step n e) := by
  induction n generalizing e with
  | zero => rfl
  | succ n ih =>
    have hnow := h'.now
    -- The other run meets the index of each pointer of this one.
    rw [move_laidOut, show (e.laidOut l).machine.pointer = l.index e.machine.pointer from rfl,
      Layout.index_add] at hnow
    have hstep := step_laidOut hcounts h.now hnow
    cases hs : e.step with
    | running next =>
      rw [hs] at hstep
      rw [follow_succ_of_running hs, follow_succ_of_running hstep]
      exact ih (everyCount_of_running hcounts hs) (h.later hs) (h'.later hstep)
    | stopped r =>
      rw [hs] at hstep
      rw [follow_succ_of_stopped hs, follow_succ_of_stopped hstep]
      rfl

end Execution

/-- The second machine is in the state of the first one, with its tape laid out in another way. -/
structure Corresponds (l : Layout) (m m' : Machine) : Prop where
  pointer_eq : m'.pointer = l.direction.sign * m.pointer + l.origin
  mem_iff : ∀ i, l.direction.sign * i + l.origin ∈ m'.tape.cells ↔ i ∈ m.tape.cells
  get_eq : ∀ i, m'.tape.get (l.direction.sign * i + l.origin) = m.tape.get i
  touched_eq : m'.tape.touched = m.tape.touched
  eof_eq : m'.eof = m.eof
  console_eq : m'.console = m.console
  log_eq : m'.log = m.log.map (Event.laidOut l)

theorem corresponds_laidOut (l : Layout) (m : Machine) : Corresponds l m (m.laidOut l) :=
  ⟨rfl, fun _ => Tape.mem_cells_laidOut, m.tape.get_laidOut l, m.tape.touched_laidOut l, rfl, rfl,
    rfl⟩

/-- A turned program does the same on a turned tape. -/
theorem tape_has_no_special_place_or_direction (l : Layout) (p : Program) (m : Machine) (n : Nat)
    (hcounts : Program.EveryCount (· < 2 ^ 63) p) (h : Execution.MeetsWords n ⟨p, m⟩)
    (h' : Execution.MeetsWords n ⟨Program.turned l.direction p, m.laidOut l⟩) :
    let run := m.interpret n p
    let run' := (m.laidOut l).interpret n (Program.turned l.direction p)
    Corresponds l m (m.laidOut l) ∧
    ((∃ r, run = .stopped r) ↔ ∃ r, run' = .stopped r) ∧
    (∀ r m₁, run = .stopped (r, m₁) → ∃ m₂, run' = .stopped (r, m₂) ∧ Corresponds l m₁ m₂) ∧
    ∀ e, run = .running e → ∃ e', run' = .running e' ∧
      e'.todo = Program.turned l.direction e.todo ∧ Corresponds l e.machine e'.machine := by
  intro run run'
  have hrun : run' = Execution.laidOutRun l run :=
    Execution.follow_laidOut (e := ⟨p, m⟩) hcounts h h'
  refine ⟨corresponds_laidOut l m, ?_, ?_, ?_⟩
  · rw [hrun]
    cases run with
    | running e => simp [Progress.map]
    | stopped r => simp [Progress.map]
  · intro r m₁ hr
    rw [hrun, hr]
    exact ⟨_, rfl, corresponds_laidOut l m₁⟩
  · intro e he
    rw [hrun, he]
    exact ⟨_, rfl, rfl, corresponds_laidOut l e.machine⟩

theorem tape_has_no_special_place_or_direction_left_of_the_start :
    let p : Program := [.counted .shiftLeft 3, .counted .increment 2, .loop [.counted .shiftRight 1,
      .counted .increment 1, .counted .shiftLeft 1, .counted .decrement 1], .counted .shiftRight 1,
      .print]
    let m := Machine.ofConsole .zero (.ofScripts [] [] [])
    let l : Layout := ⟨.reversed, 2 ^ 63 - 4⟩
    Program.EveryCount (· < 2 ^ 63) p ∧ Execution.MeetsWords 20 ⟨p, m⟩ ∧
      Execution.MeetsWords 20 ⟨Program.turned l.direction p, m.laidOut l⟩ ∧
      (m.interpret 20 p matches .stopped _) ∧
      ∃ r m₁ m₂, m.interpret 20 p = .stopped (r, m₁) ∧ m₁.console.output = #[2] ∧
        (m.laidOut l).interpret 20 (Program.turned l.direction p) = .stopped (r, m₂) ∧
        Corresponds l m₁ m₂ := by
  intro p m l
  have hcounts : Program.EveryCount (· < 2 ^ 63) p := by
    simp [p, Program.EveryCount, Statement.EveryCount]
  have h : Execution.MeetsWords 20 ⟨p, m⟩ := by decide +kernel
  have h' : Execution.MeetsWords 20 ⟨Program.turned l.direction p, m.laidOut l⟩ := by
    decide +kernel
  have hstops : m.interpret 20 p matches .stopped _ := by decide +kernel
  have houtput : (Execution.reached (m.interpret 20 p)).console.output = #[2] := by
    decide +kernel
  refine ⟨hcounts, h, h', hstops, ?_⟩
  cases hend : m.interpret 20 p with
  | running e =>
    rw [hend] at hstops
    contradiction
  | stopped r =>
    rw [hend] at houtput
    obtain ⟨-, -, hstopped, -⟩ := tape_has_no_special_place_or_direction l p m 20 hcounts h h'
    obtain ⟨m₂, hend', hsame⟩ := hstopped r.1 r.2 hend
    exact ⟨r.1, r.2, m₂, rfl, houtput, hend', hsame⟩

end Brainfuck
