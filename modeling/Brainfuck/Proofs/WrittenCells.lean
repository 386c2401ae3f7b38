import Brainfuck.Proofs.Delivery
import Mathlib.Data.Set.Card

/-!
# The cells that are written

A tape holds the indices that it held at the start and those at which a value was stored, whatever
the value was. Every other cell is left alone.
-/

namespace Brainfuck

open Progress

/-! ## Tapes -/

namespace Tape

/-- The indices that the tape holds. -/
def indices (t : Tape) : Finset Int := t.cells.keys.toFinset

theorem mem_indices {t : Tape} {i : Int} : i ∈ t.indices ↔ i ∈ t.cells := by
  rw [indices, List.mem_toFinset, Std.ExtTreeMap.mem_keys]

theorem touched_eq_card (t : Tape) : t.touched = t.indices.card := by
  rw [indices, List.toFinset_card_of_nodup Std.ExtTreeMap.nodup_keys, Std.ExtTreeMap.length_keys,
    touched]

theorem get_of_not_mem_indices {t : Tape} {i : Int} (h : i ∉ t.indices) : t.get i = 0 :=
  Std.ExtTreeMap.getD_eq_fallback (mem_indices.not.1 h)

theorem mem_indices_set {t : Tape} {i j : Int} {v : UInt8} :
    j ∈ (t.set i v).indices ↔ i = j ∨ j ∈ t.indices := by
  rw [mem_indices, mem_indices, mem_cells_set]

theorem ext_indices {t t' : Tape} (hmem : ∀ i, i ∈ t.indices ↔ i ∈ t'.indices)
    (hget : ∀ i, t.get i = t'.get i) : t = t' := by
  apply ext_getElem?
  intro i
  have hget := hget i
  have hmem := hmem i
  rw [mem_indices, mem_indices] at hmem
  by_cases h : i ∈ t.cells
  · rw [get, get, Std.ExtTreeMap.getD_eq_getD_getElem?, Std.ExtTreeMap.getD_eq_getD_getElem?,
      Std.ExtTreeMap.getElem?_eq_some_getElem h,
      Std.ExtTreeMap.getElem?_eq_some_getElem (hmem.1 h)] at hget
    rw [Std.ExtTreeMap.getElem?_eq_some_getElem h,
      Std.ExtTreeMap.getElem?_eq_some_getElem (hmem.1 h)]
    exact congrArg some hget
  · rw [Std.ExtTreeMap.getElem?_eq_none h, Std.ExtTreeMap.getElem?_eq_none (hmem.not.1 h)]

/-- A tape that has come from another by writing certain cells. -/
structure Overwrites (start : Tape) (written : Set Int) (t : Tape) : Prop where
  mem_iff : ∀ i, i ∈ t.indices ↔ i ∈ start.indices ∨ i ∈ written
  touched_eq : t.touched = ((start.indices : Set Int) ∪ written).ncard
  get_eq : ∀ i, i ∉ written → t.get i = start.get i
  get_eq_zero : ∀ i, i ∉ start.indices → i ∉ written → t.get i = 0

theorem overwrites_of {start t : Tape} {written : Set Int}
    (hmem : ∀ i, i ∈ t.indices ↔ i ∈ start.indices ∨ i ∈ written)
    (hget : ∀ i, i ∉ written → t.get i = start.get i) : Overwrites start written t := by
  refine ⟨hmem, ?_, hget, fun i hstart hi => ?_⟩
  · have hset : (start.indices : Set Int) ∪ written = t.indices := by
      ext i
      exact (hmem i).symm
    rw [hset, Set.ncard_coe_finset, touched_eq_card]
  · rw [hget i hi, get_of_not_mem_indices hstart]

theorem overwrites_self (t : Tape) : Overwrites t ∅ t :=
  overwrites_of (fun _ => by simp) fun _ _ => rfl

theorem Overwrites.set {start t : Tape} {written : Set Int} (h : Overwrites start written t)
    (i : Int) (v : UInt8) : Overwrites start (insert i written) (t.set i v) := by
  refine overwrites_of (fun j => ?_) fun j hj => ?_
  · rw [mem_indices_set, h.mem_iff, Set.mem_insert_iff, eq_comm, or_left_comm]
  · rw [Set.mem_insert_iff, not_or] at hj
    rw [get_set, if_neg (Ne.symm hj.1), h.get_eq j hj.2]

end Tape

/-! ## Operations -/

/-- What can be asked of a machine. -/
inductive Operation where
  | read
  | write
  | flush
  | add (n : Nat)
  | sub (n : Nat)
  | shift (distance : Int)
  | isZero
  | reset
deriving DecidableEq, Repr

namespace Machine

/-- The machine after an operation, whether it has succeeded or failed. -/
def perform (m : Machine) : Operation → Machine
  | .read => m.read.2
  | .write => m.write.2
  | .flush => m.flush.2
  | .add n => m.add n
  | .sub n => m.sub n
  | .shift d => (m.shift d).2
  | .isZero => m
  | .reset => m.reset

def performAll (m : Machine) (ops : List Operation) : Machine := ops.foldl perform m

theorem performAll_concat (m : Machine) (ops : List Operation) (op : Operation) :
    m.performAll (ops ++ [op]) = (m.performAll ops).perform op := by
  simp [performAll]

/-- The operation stores a value in the current cell. The end of the input stores one unless the
cell is to be unchanged. -/
inductive Writes (m : Machine) : Operation → Prop
  | add (n : Nat) : Writes m (.add n)
  | sub (n : Nat) : Writes m (.sub n)
  | byte {b : UInt8} : m.console.nextFlush = .done →
      (settleRead m.console.input).answer = .byte b → Writes m .read
  | ended : m.console.nextFlush = .done → (settleRead m.console.input).answer = .ended →
      m.eof = .zero ∨ m.eof = .max → Writes m .read

variable {m : Machine} {op : Operation}

theorem tape_receive (m : Machine) (x : Except IoError (Option UInt8)) :
    (m.receive x).tape = match x with
      | .ok (some b) => m.tape.set m.pointer b
      | .ok none => match m.eof.stored? with
        | some v => m.tape.set m.pointer v
        | none => m.tape
      | .error _ => m.tape := by
  rcases x with e | _ | b
  · rfl
  · exact m.tape_atEnd
  · rfl

theorem tape_read_of_writes (h : m.Writes .read) :
    ∃ v, m.read.2.tape = m.tape.set m.pointer v := by
  cases h with
  | @byte b hf hb =>
    rw [read_of_flushed hf, hb]
    exact ⟨b, rfl⟩
  | ended hf hend heof =>
    rw [read_of_flushed hf, hend, tape_receive]
    rcases heof with heof | heof
    · exact ⟨0, by simp [ReadAnswer.outcome, heof, EndOfInput.stored?]⟩
    · exact ⟨255, by simp [ReadAnswer.outcome, heof, EndOfInput.stored?]⟩

theorem tape_read_of_not_writes (h : ¬m.Writes .read) : m.read.2.tape = m.tape := by
  cases hf : m.console.nextFlush with
  | failed x => rw [read_of_refused hf]
  | done =>
    rw [read_of_flushed hf, tape_receive]
    cases ha : (settleRead m.console.input).answer with
    | byte b => exact absurd (.byte hf ha) h
    | failed x => rfl
    | ended =>
      have heof : m.eof = .unchanged := by
        cases heof : m.eof with
        | unchanged => rfl
        | zero => exact absurd (.ended hf ha (.inl heof)) h
        | max => exact absurd (.ended hf ha (.inr heof)) h
      simp [ReadAnswer.outcome, heof, EndOfInput.stored?]

theorem tape_perform_of_writes (h : m.Writes op) :
    ∃ v, (m.perform op).tape = m.tape.set m.pointer v := by
  cases op with
  | read => exact tape_read_of_writes h
  | add n => exact ⟨_, rfl⟩
  | sub n => exact ⟨_, rfl⟩
  | write | flush | shift | isZero | reset => cases h

theorem tape_perform_of_not_writes (h : ¬m.Writes op) (hop : op ≠ .reset) :
    (m.perform op).tape = m.tape := by
  cases op with
  | read => exact tape_read_of_not_writes h
  | write => rw [perform, write_eq]
  | flush => rw [perform, flush_eq]
  | add n => exact absurd (.add n) h
  | sub n => exact absurd (.sub n) h
  | shift d =>
    unfold perform shift
    simp only
    split <;> rfl
  | isZero => rfl
  | reset => contradiction

/-- The cell that the operation writes, if it writes one. -/
def writtenBy (m : Machine) (op : Operation) : Set Int := {i | m.Writes op ∧ m.pointer = i}

theorem overwrites_perform {start : Tape} {written : Set Int}
    (h : start.Overwrites written m.tape) (hop : op ≠ .reset) :
    start.Overwrites (written ∪ m.writtenBy op) (m.perform op).tape := by
  by_cases hw : m.Writes op
  · obtain ⟨v, hv⟩ := tape_perform_of_writes hw
    have hset : written ∪ m.writtenBy op = insert m.pointer written := by
      ext i
      simp [writtenBy, hw, eq_comm]
    rw [hset, hv]
    exact h.set m.pointer v
  · have hset : written ∪ m.writtenBy op = written := by simp [writtenBy, hw]
    rw [hset, tape_perform_of_not_writes hw hop]
    exact h

end Machine

/-! ## Sequences of operations -/

/-- One of the operations writes the cell, and no later one goes back to the start. -/
def Machine.WrittenLast (m : Machine) (ops : List Operation) (i : Int) : Prop :=
  ∃ before op after, ops = before ++ op :: after ∧ .reset ∉ after ∧
    i ∈ (m.performAll before).writtenBy op

/-- The tape that the operations since the last reset have started from. -/
def Machine.lastStart (m : Machine) (ops : List Operation) : Tape :=
  if .reset ∈ ops then .empty else m.tape

namespace Machine

variable {m : Machine} {ops : List Operation} {op : Operation} {i : Int}

theorem writtenLast_concat : m.WrittenLast (ops ++ [op]) i ↔
    (m.WrittenLast ops i ∧ op ≠ .reset) ∨ i ∈ (m.performAll ops).writtenBy op := by
  constructor
  · rintro ⟨before, d, after, heq, hreset, hd⟩
    rcases concat_eq_append_cons_iff.1 heq with ⟨rfl, rfl, -⟩ | ⟨after, rfl, rfl⟩
    · exact .inr hd
    · rw [List.mem_append, List.mem_singleton, not_or] at hreset
      exact .inl ⟨⟨before, d, after, rfl, hreset.1, hd⟩, Ne.symm hreset.2⟩
  · rintro (⟨⟨before, d, after, rfl, hreset, hd⟩, hop⟩ | hop)
    · refine ⟨before, d, after ++ [op], by simp, ?_, hd⟩
      rw [List.mem_append, List.mem_singleton, not_or]
      exact ⟨hreset, Ne.symm hop⟩
    · exact ⟨ops, op, [], rfl, List.not_mem_nil, hop⟩

theorem overwrites_performAll (m : Machine) (ops : List Operation) :
    (m.lastStart ops).Overwrites {i | m.WrittenLast ops i} (m.performAll ops).tape := by
  -- The last operation is the one that is new, as in a run.
  induction ops using List.reverseRecOn with
  | nil =>
    have hnone : {i | m.WrittenLast [] i} = ∅ := by
      ext i
      simp [WrittenLast]
    rw [hnone]
    exact Tape.overwrites_self m.tape
  | append_singleton ops op ih =>
    rw [performAll_concat]
    by_cases hop : op = .reset
    · -- A reset starts from the empty tape again, on which nothing has been written.
      have hnone : {i | m.WrittenLast (ops ++ [op]) i} = ∅ := by
        ext i
        rw [Set.mem_ofPred_eq, writtenLast_concat, hop]
        simp [writtenBy, show ¬(m.performAll ops).Writes .reset by rintro ⟨⟩]
      have hstart : m.lastStart (ops ++ [op]) = .empty := if_pos (by simp [hop])
      rw [hnone, hstart, hop]
      exact Tape.overwrites_self .empty
    · have hset : {i | m.WrittenLast (ops ++ [op]) i} =
          {i | m.WrittenLast ops i} ∪ (m.performAll ops).writtenBy op := by
        ext i
        rw [Set.mem_ofPred_eq, writtenLast_concat]
        simp [hop]
      have hstart : m.lastStart (ops ++ [op]) = m.lastStart ops := by
        simp [lastStart, Ne.symm hop]
      rw [hset, hstart]
      exact overwrites_perform ih hop

end Machine

/-! ## Runs -/

namespace Execution

/-- What the next step asks of its machine. It asks for nothing if the distance of its shift cannot
be negated. -/
def operation? (e : Execution) : Option Operation :=
  match e.todo with
  | [] => some .flush
  | .print :: _ => some .write
  | .input :: _ => some .read
  | .counted .increment n :: _ => some (.add n)
  | .counted .decrement n :: _ => some (.sub n)
  | .counted .shiftRight n :: _ => some (.shift (signedWord n))
  | .counted .shiftLeft n :: _ =>
    if inWord (-signedWord n) then some (.shift (-signedWord n)) else none
  | .loop _ :: _ => some .isZero

theorem reached_step (e : Execution) :
    reached e.step = e.machine.performAll e.operation?.toList := by
  obtain ⟨todo, m⟩ := e
  rcases todo with _ | ⟨_ | _ | ⟨o, n⟩ | body, rest⟩
  · rfl
  · exact reached_proceed rest m.write
  · exact reached_proceed rest m.read
  · rw [step_counted, reached_proceed]
    cases o with
    | increment | decrement | shiftRight => rfl
    | shiftLeft =>
      unfold Machine.apply operation?
      dsimp only
      split <;> rfl
  · exact reached_step_loop body rest m

theorem ne_reset_of_operation? {e : Execution} {op : Operation} (h : e.operation? = some op) :
    op ≠ .reset := by
  rintro rfl
  obtain ⟨todo, m⟩ := e
  rcases todo with _ | ⟨_ | _ | ⟨_ | _ | _ | _, n⟩ | body, rest⟩
  case cons.counted.shiftLeft =>
    unfold operation? at h
    dsimp only at h
    split at h <;> cases h
  all_goals cases h

/-- The next step stores a value in the current cell. -/
inductive Writes : Execution → Prop
  | increment {n : Nat} {rest : Program} {m : Machine} :
      Writes ⟨.counted .increment n :: rest, m⟩
  | decrement {n : Nat} {rest : Program} {m : Machine} :
      Writes ⟨.counted .decrement n :: rest, m⟩
  | input {rest : Program} {m : Machine} : m.Writes .read → Writes ⟨.input :: rest, m⟩

theorem writes_iff {e : Execution} :
    e.Writes ↔ ∃ op, e.operation? = some op ∧ e.machine.Writes op := by
  constructor
  · rintro (_ | _ | h)
    · exact ⟨_, rfl, .add _⟩
    · exact ⟨_, rfl, .sub _⟩
    · exact ⟨_, rfl, h⟩
  · rintro ⟨op, hop, h⟩
    obtain ⟨todo, m⟩ := e
    -- Only `,`, `+` and `-` store anything, the first one unless the end leaves the cell alone.
    rcases todo with _ | ⟨_ | _ | ⟨_ | _ | _ | _, n⟩ | body, rest⟩
    case cons.input =>
      cases hop
      exact .input h
    case cons.counted.increment => exact .increment
    case cons.counted.decrement => exact .decrement
    case cons.counted.shiftLeft =>
      unfold operation? at hop
      dsimp only at hop
      split at hop
      · cases hop
        cases h
      · cases hop
    all_goals
      cases hop
      cases h

/-- The cell that the next step writes, if it writes one. -/
def written (e : Execution) : Set Int := {i | e.Writes ∧ e.machine.pointer = i}

theorem written_of_operation?_eq_some {e : Execution} {op : Operation}
    (h : e.operation? = some op) : e.written = e.machine.writtenBy op := by
  ext i
  simp [written, writes_iff, Machine.writtenBy, h]

theorem written_of_operation?_eq_none {e : Execution} (h : e.operation? = none) :
    e.written = ∅ := by
  ext i
  simp [written, writes_iff, h]

theorem overwrites_step {e : Execution} {start : Tape} {written : Set Int}
    (h : start.Overwrites written e.machine.tape) :
    start.Overwrites (written ∪ e.written) (reached e.step).tape := by
  rw [reached_step]
  cases hop : e.operation? with
  | none =>
    rw [written_of_operation?_eq_none hop, Set.union_empty]
    exact h
  | some op =>
    rw [written_of_operation?_eq_some hop]
    exact Machine.overwrites_perform h (ne_reset_of_operation? hop)

theorem tape_step_of_not_writes {e : Execution} (h : ¬e.Writes) :
    (reached e.step).tape = e.machine.tape := by
  rw [reached_step]
  cases hop : e.operation? with
  | none => rfl
  | some op =>
    have hw : ¬e.machine.Writes op := fun hw => h (writes_iff.2 ⟨op, hop, hw⟩)
    exact Machine.tape_perform_of_not_writes hw (ne_reset_of_operation? hop)

end Execution

theorem overwrites_interpret (p : Program) (m : Machine) (n : Nat) :
    m.tape.Overwrites {i | ∃ e ∈ passed Execution.step n ⟨p, m⟩, i ∈ e.written}
      (Execution.reached (m.interpret n p)).tape := by
  refine passed_induction Execution.step ⟨p, m⟩
    (P := fun executed run => m.tape.Overwrites {i | ∃ e ∈ executed, i ∈ e.written}
      (Execution.reached run).tape) ?_ ?_ n
  · have hnone : {i | ∃ e ∈ ([] : List Execution), i ∈ e.written} = ∅ := by
      ext i
      simp
    rw [hnone]
    exact Tape.overwrites_self m.tape
  · intro executed e h
    have hset : {i | ∃ d ∈ executed ++ [e], i ∈ d.written} =
        {i | ∃ d ∈ executed, i ∈ d.written} ∪ e.written := by
      ext i
      simp [or_and_right, exists_or]
    rw [hset]
    exact Execution.overwrites_step h

/-- Writes touch exactly their cells. -/
theorem writes_touch_exactly_their_cells (p : Program) (m : Machine) (n : Nat)
    (ops : List Operation) :
    let executed := passed Execution.step n ⟨p, m⟩
    m.tape.Overwrites {i | ∃ e ∈ executed, e.Writes ∧ e.machine.pointer = i}
      (Execution.reached (m.interpret n p)).tape ∧
    (∀ e ∈ executed, ¬e.Writes → (Execution.reached e.step).tape = e.machine.tape) ∧
    (m.lastStart ops).Overwrites {i | m.WrittenLast ops i} (m.performAll ops).tape ∧
    ∀ before op, ¬(m.performAll before).Writes op → op ≠ .reset →
      (m.performAll (before ++ [op])).tape = (m.performAll before).tape := by
  refine ⟨overwrites_interpret p m n, fun e _ => Execution.tape_step_of_not_writes,
    m.overwrites_performAll ops, ?_⟩
  intro before op hw hop
  rw [Machine.performAll_concat]
  exact Machine.tape_perform_of_not_writes hw hop

/-- Adding 256 writes the cell, printing another one does not. -/
example :
    let m := Machine.ofConsole .zero (.ofScripts [] [] [])
    let run := m.interpret 4 [.counted .increment 256, .counted .shiftRight 1, .print]
    (Execution.reached run).tape.touched = 1 := by
  decide +kernel

end Brainfuck
