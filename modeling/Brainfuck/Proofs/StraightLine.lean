import Brainfuck.Proofs.Congruence
import Brainfuck.Proofs.Pointer
import Brainfuck.Proofs.WrittenCells

/-!
# Straight-line programs

A program of runs alone, without loops and without input or output, carries out each of its
statements once. What it leaves in a cell depends on the sums of the counts carried out there, and
on nothing else.
-/

namespace Brainfuck

open Progress

/-! ## Programs of runs alone -/

def Statement.IsCounted (s : Statement) : Prop := ∃ o n, s = .counted o n

def Program.StraightLine (p : Program) : Prop := ∀ s ∈ p, s.IsCounted

namespace Execution

theorem straightLine_of_running {e next : Execution} (h : Program.StraightLine e.todo)
    (hstep : e.step = .running next) : Program.StraightLine next.todo := by
  rcases todo_of_running hstep with ⟨s, htodo⟩ | ⟨body, rest, htodo, -⟩
  · rw [htodo] at h
    exact fun s hs => h s (List.mem_cons_of_mem _ hs)
  · rw [htodo] at h
    obtain ⟨o, n, hloop⟩ := h (.loop body) List.mem_cons_self
    contradiction

/-- The next step is the end of the program, or a run. -/
theorem straightLine_cases {e : Execution} (h : Program.StraightLine e.todo) :
    e.todo = [] ∨ ∃ o n rest, e.todo = .counted o n :: rest := by
  cases htodo : e.todo with
  | nil => exact .inl rfl
  | cons s rest =>
    obtain ⟨o, n, rfl⟩ := h s (by simp [htodo])
    exact .inr ⟨o, n, rest, rfl⟩

end Execution

/-! ## What the runs leave alone -/

/-- The machines differ in nothing but their cells and their pointers. -/
structure Machine.AlikeOffTape (m m' : Machine) : Prop where
  eof_eq : m'.eof = m.eof
  console_eq : m'.console = m.console
  log_eq : m'.log = m.log

namespace Machine

variable {m m' m'' : Machine}

theorem AlikeOffTape.trans (h : m.AlikeOffTape m') (h' : m'.AlikeOffTape m'') :
    m.AlikeOffTape m'' :=
  ⟨h'.eof_eq.trans h.eof_eq, h'.console_eq.trans h.console_eq, h'.log_eq.trans h.log_eq⟩

theorem AlikeOffTape.symm (h : m.AlikeOffTape m') : m'.AlikeOffTape m :=
  ⟨h.eof_eq.symm, h.console_eq.symm, h.log_eq.symm⟩

theorem AlikeOffTape.eq (h : m.AlikeOffTape m') (hpointer : m'.pointer = m.pointer)
    (htape : m'.tape = m.tape) : m' = m := by
  obtain ⟨pointer, tape, eof, console, log⟩ := m
  obtain ⟨pointer', tape', eof', console', log'⟩ := m'
  obtain ⟨heof, hconsole, hlog⟩ := h
  subst hpointer htape heof hconsole hlog
  rfl

theorem alikeOffTape_shift (m : Machine) (d : Int) : m.AlikeOffTape (m.shift d).2 := by
  unfold shift
  split <;> exact ⟨rfl, rfl, rfl⟩

theorem alikeOffTape_apply (m : Machine) (o : Operator) (n : Nat) :
    m.AlikeOffTape (m.apply o n).2 := by
  cases o with
  | increment | decrement => exact ⟨rfl, rfl, rfl⟩
  | shiftRight => exact m.alikeOffTape_shift _
  | shiftLeft =>
    unfold apply
    simp only
    split
    · exact m.alikeOffTape_shift _
    · exact ⟨rfl, rfl, rfl⟩

end Machine

/-! ## To the end of the program -/

open Execution

theorem interpret_of_straightLine {p : Program} (h : Program.StraightLine p) (m : Machine) :
    ∃ r, m.interpret (p.length + 1) p = .stopped r ∧ (overflow? (.stopped r) = none →
      (passed Execution.step (p.length + 1) ⟨p, m⟩).map todo = p.tails ∧
        ∃ m', m.AlikeOffTape m' ∧ r = m'.flush) := by
  unfold Machine.interpret
  induction p generalizing m with
  | nil => exact ⟨m.flush, rfl, fun _ => ⟨rfl, m, ⟨rfl, rfl, rfl⟩, rfl⟩⟩
  | cons s p ih =>
    obtain ⟨o, n, rfl⟩ := h s List.mem_cons_self
    have hp : Program.StraightLine p := fun s hs => h s (List.mem_cons_of_mem _ hs)
    have hfst := m.apply_fst o n
    have halike := m.alikeOffTape_apply o n
    have hstep := step_counted p m o n
    rcases hx : m.apply o n with ⟨x, m'⟩
    rw [hx] at hfst halike hstep
    -- The rest is run on what the statement has left, unless its shift overflows.
    rcases hfst with rfl | ⟨v, rfl⟩
    · have hstep : Execution.step ⟨.counted o n :: p, m⟩ = .running ⟨p, m'⟩ := hstep
      obtain ⟨r, hr, hend⟩ := ih hp m'
      refine ⟨r, ?_, fun hover => ?_⟩
      · rw [List.length_cons, follow_succ_of_running hstep, hr]
      · obtain ⟨hpassed, m'', halike', rfl⟩ := hend hover
        refine ⟨?_, m'', halike.trans halike', rfl⟩
        rw [List.length_cons, passed_of_running hstep, List.map_cons, hpassed, List.tails_cons]
    · exact ⟨_, follow_succ_of_stopped hstep, by rintro ⟨⟩⟩

/-! ## What the runs add up to -/

/-- The count of the next step, if it is a run of the operator at the cell. -/
def Execution.countAt (o : Operator) (i : Int) (e : Execution) : Nat :=
  match e.todo with
  | .counted o' n :: _ => if o' = o ∧ e.machine.pointer = i then n else 0
  | _ => 0

/-- All counts of the operator that the steps have carried out at the cell. -/
def countsAt (o : Operator) (i : Int) (executed : List Execution) : Nat :=
  (executed.map (countAt o i)).sum

/-- How the steps change the cell by exact integer arithmetic. -/
def netChange (i : Int) (executed : List Execution) : Int :=
  countsAt .increment i executed - countsAt .decrement i executed

namespace Execution

/-- How the next step changes the cell. -/
def changeAt (i : Int) (e : Execution) : Int :=
  e.countAt .increment i - e.countAt .decrement i

theorem changeAt_counted {o : Operator} {n : Nat} {i : Int} {rest : Program} {m : Machine} :
    changeAt i ⟨.counted o n :: rest, m⟩ = if m.pointer = i then o.change n else 0 := by
  unfold changeAt countAt
  by_cases hi : m.pointer = i
  · cases o <;> simp [Operator.change, hi]
  · simp [hi]

theorem changeAt_eq_zero {e : Execution} {i : Int} (h : ¬(e.Writes ∧ e.machine.pointer = i)) :
    e.changeAt i = 0 := by
  obtain ⟨todo, m⟩ := e
  rcases todo with _ | ⟨_ | _ | ⟨o, n⟩ | body, rest⟩
  case cons.counted =>
    rw [changeAt_counted]
    cases o with
    | increment => exact if_neg fun hi => h ⟨.increment, hi⟩
    | decrement => exact if_neg fun hi => h ⟨.decrement, hi⟩
    | shiftLeft | shiftRight => exact ite_self 0
  all_goals rfl

theorem get_step_of_straightLine {e : Execution} (h : Program.StraightLine e.todo) (i : Int) :
    (reached e.step).tape.get i = e.machine.tape.get i + UInt8.ofInt (e.changeAt i) := by
  by_cases hw : e.Writes
  · obtain ⟨todo, m⟩ := e
    rcases straightLine_cases h with rfl | ⟨o, n, rest, rfl⟩
    · contradiction
    · have ho : o.ChangesCell := by
        cases hw with
        | increment => exact .inl rfl
        | decrement => exact .inr rfl
      rw [step_counted, m.apply_of_changesCell ho, reached_proceed, changeAt_counted,
        Machine.setValue, Tape.get_set]
      split
      · rename_i hi
        rw [← hi]
        rfl
      · exact (UInt8.add_zero _).symm
  · rw [tape_step_of_not_writes hw, changeAt_eq_zero fun hi => hw hi.1]
    exact (UInt8.add_zero _).symm

end Execution

theorem netChange_eq_sum (i : Int) (executed : List Execution) :
    netChange i executed = (executed.map (changeAt i)).sum := by
  induction executed with
  | nil => rfl
  | cons e executed ih =>
    rw [List.map_cons, List.sum_cons, ← ih]
    unfold netChange countsAt changeAt
    simp only [List.map_cons, List.sum_cons]
    omega

theorem netChange_concat (i : Int) (executed : List Execution) (e : Execution) :
    netChange i (executed ++ [e]) = netChange i executed + e.changeAt i := by
  simp [netChange_eq_sum]

theorem netChange_eq_zero {i : Int} {executed : List Execution}
    (h : ¬∃ e ∈ executed, e.Writes ∧ e.machine.pointer = i) : netChange i executed = 0 := by
  rw [netChange_eq_sum]
  apply List.sum_eq_zero
  intro x hx
  obtain ⟨e, he, rfl⟩ := List.mem_map.1 hx
  exact changeAt_eq_zero fun hi => h ⟨e, he, hi⟩

variable {p q : Program}

theorem get_interpret_of_straightLine (h : Program.StraightLine p) (m : Machine) (n : Nat)
    (i : Int) : (reached (m.interpret n p)).tape.get i =
      m.tape.get i + UInt8.ofInt (netChange i (passed Execution.step n ⟨p, m⟩)) := by
  refine And.left (passed_induction Execution.step ⟨p, m⟩
    (P := fun executed run => (reached run).tape.get i =
        m.tape.get i + UInt8.ofInt (netChange i executed) ∧
      ∀ e, run = .running e → Program.StraightLine e.todo) ?_ ?_ n)
  · refine ⟨(UInt8.add_zero _).symm, ?_⟩
    rintro e ⟨⟩
    exact h
  · rintro executed e ⟨hget, hline⟩
    have hnow : e.machine.tape.get i = m.tape.get i + UInt8.ofInt (netChange i executed) := hget
    have he := hline e rfl
    refine ⟨?_, fun _ => straightLine_of_running he⟩
    rw [get_step_of_straightLine he, hnow, netChange_concat, UInt8.ofInt_add, UInt8.add_assoc]

/-! ## Any order -/

theorem eq_of_straightLine {m : Machine} {r r' : Except Fault Unit × Machine} {n k : Nat}
    (hp : Program.StraightLine p) (hq : Program.StraightLine q)
    (hn : m.interpret n p = .stopped r) (hk : m.interpret k q = .stopped r')
    (hr : overflow? (.stopped r) = none) (hr' : overflow? (.stopped r') = none)
    (hpointer : r'.2.pointer = r.2.pointer) (htape : r'.2.tape = r.2.tape) : r' = r := by
  obtain ⟨_, hstop, hend⟩ := interpret_of_straightLine hp m
  obtain ⟨_, hstop', hend'⟩ := interpret_of_straightLine hq m
  obtain rfl := Ends.unique ⟨_, hstop⟩ ⟨n, hn⟩
  obtain rfl := Ends.unique ⟨_, hstop'⟩ ⟨k, hk⟩
  obtain ⟨-, m₁, h₁, rfl⟩ := hend hr
  obtain ⟨-, m₂, h₂, rfl⟩ := hend' hr'
  have hm : m₂ = m₁ := by
    rw [Machine.flush_eq, Machine.flush_eq] at hpointer htape
    exact (h₁.symm.trans h₂).eq hpointer htape
  rw [hm]

/-- The order of straight-line arithmetic does not matter. -/
theorem straight_line_arithmetic_is_order_independent (hp : Program.StraightLine p) (m : Machine)
    (n : Nat) :
    let executed := passed Execution.step n ⟨p, m⟩
    let run := m.interpret n p
    (p.length < n → ∃ r, run = .stopped r ∧
      (overflow? run = none → executed.map todo = p.tails)) ∧
    (∀ i, ((reached run).tape.get i).toNat = ((m.tape.get i).toNat +
      countsAt .increment i executed - countsAt .decrement i executed : Int) % 256) ∧
    ∀ q k r r', Program.StraightLine q → run = .stopped r → m.interpret k q = .stopped r' →
      overflow? (.stopped r) = none → overflow? (.stopped r') = none →
      let executed' := passed Execution.step k ⟨q, m⟩
      r'.2.pointer = r.2.pointer →
      (∀ i, (∃ e ∈ executed', e.Writes ∧ e.machine.pointer = i) ↔
        ∃ e ∈ executed, e.Writes ∧ e.machine.pointer = i) →
      (∀ i, netChange i executed' ≡ netChange i executed [ZMOD 256]) → r' = r := by
  intro executed run
  refine ⟨fun hn => ?_, fun i => ?_, ?_⟩
  · obtain ⟨r, hr, hend⟩ := interpret_of_straightLine hp m
    have hrun : run = .stopped r := follow_of_stopped hr hn
    have hexecuted : executed = passed Execution.step (p.length + 1) ⟨p, m⟩ :=
      passed_of_follow_stopped hr hn
    refine ⟨r, hrun, fun hover => ?_⟩
    rw [hrun] at hover
    rw [hexecuted, (hend hover).1]
  · have hget : (reached run).tape.get i = m.tape.get i + UInt8.ofInt (netChange i executed) :=
      get_interpret_of_straightLine hp m n i
    rw [hget, ← ofInt_toNat (m.tape.get i), ← UInt8.ofInt_add, toNat_ofInt, ofInt_toNat,
      netChange, Int.add_sub_assoc]
  · intro q k r r' hq hr hr' hover hover' executed' hpointer hwritten hnet
    have htape : r'.2.tape = r.2.tape := by
      have hmem := (overwrites_interpret p m n).mem_iff
      have hmem' := (overwrites_interpret q m k).mem_iff
      have hget := get_interpret_of_straightLine hp m n
      have hget' := get_interpret_of_straightLine hq m k
      change m.interpret n p = .stopped r at hr
      rw [hr] at hmem hget
      rw [hr'] at hmem' hget'
      refine Tape.ext_indices (fun i => ?_) fun i => ?_
      · exact (hmem' i).trans ((or_congr Iff.rfl (hwritten i)).trans (hmem i).symm)
      · exact (hget' i).trans (ofInt_eq_ofInt_iff.2 (hnet i) ▸ (hget i).symm)
    exact eq_of_straightLine hp hq hr hr' hover hover' hpointer htape

theorem straight_line_arithmetic_is_order_independent_across_two_cells :
    let p : Program := [.counted .decrement 255, .counted .increment 258, .counted .shiftRight 1,
      .counted .increment 7]
    let q : Program := [.counted .shiftRight 1, .counted .decrement 249, .counted .shiftLeft 1,
      .counted .increment 3, .counted .shiftRight 1]
    let m := Machine.ofConsole .zero (.ofScripts [] [] [])
    Program.StraightLine p ∧ Program.StraightLine q ∧
      (∀ i, ((reached (m.interpret 5 p)).tape.get i).toNat = ((m.tape.get i).toNat +
        countsAt .increment i (passed Execution.step 5 ⟨p, m⟩) -
        countsAt .decrement i (passed Execution.step 5 ⟨p, m⟩) : Int) % 256) ∧
      ∃ r, m.interpret 5 p = .stopped r ∧ m.interpret 6 q = .stopped r := by
  intro p q m
  have hp : Program.StraightLine p := by simp [Program.StraightLine, Statement.IsCounted, p]
  have hq : Program.StraightLine q := by simp [Program.StraightLine, Statement.IsCounted, q]
  obtain ⟨hend, hcells, horder⟩ := straight_line_arithmetic_is_order_independent hp m 5
  obtain ⟨hend', -, -⟩ := straight_line_arithmetic_is_order_independent hq m 6
  obtain ⟨r, hr, -⟩ := hend (by decide)
  obtain ⟨r', hr', -⟩ := hend' (by decide)
  have hrun : overflow? (m.interpret 5 p) = none ∧ (reached (m.interpret 5 p)).pointer = 1 ∧
    (reached (m.interpret 5 p)).tape.indices = {0, 1} := by decide +kernel
  have hrun' : overflow? (m.interpret 6 q) = none ∧ (reached (m.interpret 6 q)).pointer = 1 ∧
    (reached (m.interpret 6 q)).tape.indices = {0, 1} := by decide +kernel
  have hstart (i : Int) : i ∉ m.tape.indices := by
    rw [show m.tape.indices = ∅ by decide +kernel]
    exact Finset.notMem_empty i
  have hwritten (i : Int) : (∃ e ∈ passed Execution.step 5 ⟨p, m⟩, e.Writes ∧
      e.machine.pointer = i) ↔ i ∈ ({0, 1} : Finset Int) := by
    rw [← hrun.2.2, (overwrites_interpret p m 5).mem_iff i, or_iff_right (hstart i)]
    rfl
  have hwritten' (i : Int) : (∃ e ∈ passed Execution.step 6 ⟨q, m⟩, e.Writes ∧
      e.machine.pointer = i) ↔ i ∈ ({0, 1} : Finset Int) := by
    rw [← hrun'.2.2, (overwrites_interpret q m 6).mem_iff i, or_iff_right (hstart i)]
    rfl
  have hnet (i : Int) : netChange i (passed Execution.step 6 ⟨q, m⟩) ≡
      netChange i (passed Execution.step 5 ⟨p, m⟩) [ZMOD 256] := by
    by_cases hi : i ∈ ({0, 1} : Finset Int)
    · rw [Finset.mem_insert, Finset.mem_singleton] at hi
      rcases hi with rfl | rfl <;> decide +kernel
    · rw [netChange_eq_zero ((hwritten i).not.2 hi), netChange_eq_zero ((hwritten' i).not.2 hi)]
  rw [hr] at hrun
  rw [hr'] at hrun'
  have hpointer : r'.2.pointer = r.2.pointer := hrun'.2.1.trans hrun.2.1.symm
  have heq : r' = r := horder q 6 r r' hq hr hr' hrun.1 hrun'.1 hpointer
    (fun i => (hwritten' i).trans (hwritten i).symm) hnet
  exact ⟨hp, hq, hcells, r, hr, heq ▸ hr'⟩

end Brainfuck
