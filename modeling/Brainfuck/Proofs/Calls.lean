import Brainfuck.Execution

/-!
# Calls

What the operations of a machine ask of its streams, and what they make of the answers. An operation
depends on the streams only through what its calls come to.
-/

namespace Brainfuck

/-! ## Answers -/

def ReadAnswer.outcome : ReadAnswer → Except IoError (Option UInt8)
  | byte b => .ok (some b)
  | ended => .ok none
  | failed e => .error e

def WriteAnswer.outcome : WriteAnswer → Except IoError Unit
  | accepted => .ok ()
  | nothing => .error .nothingWritten
  | failed e => .error e

def FlushAnswer.outcome : FlushAnswer → Except IoError Unit
  | done => .ok ()
  | failed e => .error e

theorem FlushAnswer.outcome_inj {a b : FlushAnswer} (h : a.outcome = b.outcome) : a = b := by
  cases a <;> cases b <;> cases h <;> rfl

def failureOf {α : Type} : Except IoError α → Option IoError
  | .ok _ => none
  | .error e => some e

/-- All answers that are given before the call is settled, the settling one last. -/
def Settled.asked {α : Type} (s : Settled α) : List α := s.interruptions ++ [s.answer]

theorem isInterruption_of_mem_interruptions {α : Type} {isInterruption : α → Bool} {last a : α}
    {script : List α} (h : a ∈ (settle isInterruption last script).interruptions) :
    isInterruption a = true :=
  List.all_eq_true.1 List.all_takeWhile a h

theorem isInterruption_answer_settleRead (script : List ReadAnswer) :
    (settleRead script).answer.isInterruption = false := isInterruption_answer_settle rfl script

theorem isInterruption_answer_settleWrite (script : List WriteAnswer) :
    (settleWrite script).answer.isInterruption = false := isInterruption_answer_settle rfl script

namespace Call

/-- The failure that a call ends with. An interrupted read or write has not ended yet. -/
def failure? : Call → Option IoError
  | read (.failed e) => if e.isInterruption then none else some e
  | write _ (.failed e) => if e.isInterruption then none else some e
  | write _ .nothing => some .nothingWritten
  | flush (.failed e) => some e
  | read _ | write _ .accepted | flush .done => none

/-- A call on the stream that is written to. -/
def isOutput : Call → Bool
  | read _ => false
  | write .. | flush _ => true

/-- A call that is made again. -/
def isInterruption : Call → Bool
  | read a => a.isInterruption
  | write _ a => a.isInterruption
  | flush _ => false

/-- The byte that the writer takes. -/
def accepted? : Call → Option UInt8
  | write b .accepted => some b
  | _ => none

theorem failure?_of_isInterruption {c : Call} (h : c.isInterruption = true) :
    c.failure? = none := by
  rcases c with (_ | _ | e) | ⟨b, _ | _ | e⟩ | a
  all_goals first
    | contradiction
    | exact if_pos h

theorem failure?_read {a : ReadAnswer} (h : a.isInterruption = false) :
    (read a).failure? = failureOf a.outcome := by
  rcases a with b | _ | e
  · rfl
  · rfl
  · exact if_neg (Bool.eq_false_iff.1 h)

theorem failure?_write {a : WriteAnswer} (b : UInt8) (h : a.isInterruption = false) :
    (write b a).failure? = failureOf a.outcome := by
  rcases a with _ | _ | e
  · rfl
  · rfl
  · exact if_neg (Bool.eq_false_iff.1 h)

theorem failure?_flush (a : FlushAnswer) : (flush a).failure? = failureOf a.outcome := by
  cases a <;> rfl

end Call

/-! ## Consoles -/

namespace Console

/-- The answer to the next flush. -/
def nextFlush (c : Console) : FlushAnswer := c.flushes.headD .done

theorem flush_eq (c : Console) :
    c.flush = (c.nextFlush.outcome,
      { c with flushes := c.flushes.tail, calls := c.calls.push (.flush c.nextFlush) }) := by
  unfold flush nextFlush
  cases c.flushes.headD .done <;> rfl

theorem write_eq (c : Console) (b : UInt8) :
    c.write b = ((settleWrite c.writes).answer.outcome,
      { c with
        writes := (settleWrite c.writes).rest
        calls := c.calls ++ (settleWrite c.writes).asked.map (Call.write b)
        output := if (settleWrite c.writes).answer = .accepted then c.output.push b
          else c.output }) := by
  unfold write
  cases h : (settleWrite c.writes).answer <;> simp [h, Settled.asked, WriteAnswer.outcome]

theorem read_eq (c : Console) :
    c.read = ((settleRead c.input).answer.outcome,
      { c with
        input := (settleRead c.input).rest
        calls := c.calls ++ (settleRead c.input).asked.map Call.read }) := by
  unfold read
  cases h : (settleRead c.input).answer <;> simp [h, Settled.asked, ReadAnswer.outcome]

theorem read_flush_fst (c : Console) :
    c.flush.2.read.1 = (settleRead c.input).answer.outcome := by
  rw [read_eq, flush_eq]

end Console

/-! ## Machines -/

namespace Machine

/-- What an input statement does with what it has read. -/
def receive (m : Machine) : Except IoError (Option UInt8) → Machine
  | .ok (some b) => m.setValue b
  | .ok none => m.atEnd
  | .error _ => m

theorem flush_eq (m : Machine) :
    m.flush = (m.console.flush.1.mapError .io, { m with console := m.console.flush.2 }) := by
  unfold flush
  rcases m.console.flush with ⟨_ | ⟨⟩, c⟩ <;> rfl

theorem flush_fst (m : Machine) : m.flush.1 = m.console.nextFlush.outcome.mapError .io := by
  rw [flush_eq, Console.flush_eq]

theorem nextFlush_of_flush_ok {m : Machine} (h : m.flush.1 = .ok ()) :
    m.console.nextFlush = .done := by
  rw [flush_fst] at h
  cases hf : m.console.nextFlush with
  | done => rfl
  | failed x =>
    rw [hf] at h
    contradiction

theorem nextFlush_of_flush_error {m : Machine} {f : Fault} (h : m.flush.1 = .error f) :
    ∃ x, f = .io x ∧ m.console.nextFlush = .failed x := by
  rw [flush_fst] at h
  cases hf : m.console.nextFlush with
  | done =>
    rw [hf] at h
    contradiction
  | failed x =>
    rw [hf] at h
    cases h
    exact ⟨x, rfl, rfl⟩

theorem write_eq (m : Machine) :
    m.write = ((m.console.write m.value).1.mapError .io,
      { m with console := (m.console.write m.value).2 }) := by
  unfold write
  rcases m.console.write m.value with ⟨_ | ⟨⟩, c⟩ <;> rfl

theorem read_of_refused {m : Machine} {e : IoError} (h : m.console.nextFlush = .failed e) :
    m.read = (.error (.io e), { m with console := m.console.flush.2 }) := by
  have hfail : m.console.flush.1 = .error e := by
    rw [Console.flush_eq, h]
    rfl
  unfold read
  rw [flush_eq, hfail]
  rfl

theorem read_of_flushed {m : Machine} (h : m.console.nextFlush = .done) :
    m.read = (((settleRead m.console.input).answer.outcome.map fun _ => ()).mapError .io,
      { m with console := m.console.flush.2.read.2 }.receive
        (settleRead m.console.input).answer.outcome) := by
  have hflush : m.flush = (.ok (), { m with console := m.console.flush.2 }) := by
    rw [flush_eq, Console.flush_eq, h]
    rfl
  unfold read
  rw [hflush, ← Console.read_flush_fst]
  dsimp only
  rcases m.console.flush.2.read with ⟨_ | _ | b, c⟩ <;> rfl

theorem atEnd_of_unstored {m : Machine} (h : m.eof.stored? = none) :
    m.atEnd = m.record (.inputExhausted m.eof m.pointer) := by
  unfold atEnd
  simp only [record, h]

theorem atEnd_of_stored {m : Machine} {v : UInt8} (h : m.eof.stored? = some v) :
    m.atEnd = (m.record (.inputExhausted m.eof m.pointer)).setValue v := by
  unfold atEnd
  simp only [record, h]

@[simp] theorem console_atEnd (m : Machine) : m.atEnd.console = m.console := by
  unfold atEnd
  simp only
  split <;> rfl

@[simp] theorem console_receive (m : Machine) (x : Except IoError (Option UInt8)) :
    (m.receive x).console = m.console := by
  rcases x with _ | _ | b
  · rfl
  · exact m.console_atEnd
  · rfl

theorem console_apply (m : Machine) (o : Operator) (n : Nat) :
    (m.apply o n).2.console = m.console := by
  cases o with
  | increment => rfl
  | decrement => rfl
  | shiftRight =>
    unfold apply shift
    simp only
    split <;> rfl
  | shiftLeft =>
    unfold apply shift
    simp only
    split
    · split <;> rfl
    · rfl

theorem apply_fst (m : Machine) (o : Operator) (n : Nat) :
    (m.apply o n).1 = .ok () ∨ ∃ v, (m.apply o n).1 = .error (.overflow v) := by
  cases o with
  | increment => exact .inl rfl
  | decrement => exact .inl rfl
  | shiftRight =>
    unfold apply shift
    simp only
    split
    · exact .inl rfl
    · exact .inr ⟨_, rfl⟩
  | shiftLeft =>
    -- A shift to the left can overflow twice, in its distance and in the sum.
    unfold apply shift
    simp only
    split
    · split
      · exact .inl rfl
      · exact .inr ⟨_, rfl⟩
    · exact .inr ⟨_, rfl⟩

/-- The calls made since the machine was in the state `start`. -/
def callsSince (start m : Machine) : List Call :=
  m.console.calls.toList.drop start.console.calls.size

theorem callsSince_eq {start m : Machine} {calls : List Call}
    (h : m.console.calls.toList = start.console.calls.toList ++ calls) :
    start.callsSince m = calls := by
  rw [callsSince, h, ← Array.length_toList, List.drop_left]

end Machine

namespace Execution

/-- The machine that a run has come to, whether it has stopped or not. -/
def reached : Progress Execution (Except Fault Unit × Machine) → Machine
  | .running e => e.machine
  | .stopped r => r.2

@[simp] theorem reached_proceed (rest : Program) (x : Except Fault Unit × Machine) :
    reached (proceed rest x) = x.2 := by
  rcases x with ⟨_ | ⟨⟩, m⟩ <;> rfl

theorem step_end (m : Machine) : step ⟨[], m⟩ = .stopped m.flush := rfl

theorem step_print (rest : Program) (m : Machine) :
    step ⟨.print :: rest, m⟩ = proceed rest m.write := rfl

theorem step_input (rest : Program) (m : Machine) :
    step ⟨.input :: rest, m⟩ = proceed rest m.read := rfl

theorem step_counted (rest : Program) (m : Machine) (o : Operator) (n : Nat) :
    step ⟨.counted o n :: rest, m⟩ = proceed rest (m.apply o n) := rfl

theorem reached_step_input (rest : Program) (m : Machine) :
    reached (step ⟨.input :: rest, m⟩) = m.read.2 := by
  rw [step_input, reached_proceed]

theorem reached_step_loop (body rest : Program) (m : Machine) :
    reached (step ⟨.loop body :: rest, m⟩) = m := by
  unfold step
  simp only
  split <;> rfl

/-! ### The streams after a step -/

theorem console_step_end (m : Machine) :
    (reached (step ⟨[], m⟩)).console = m.console.flush.2 := by
  rw [step_end, Machine.flush_eq]
  rfl

theorem console_step_print (rest : Program) (m : Machine) :
    (reached (step ⟨.print :: rest, m⟩)).console = (m.console.write m.value).2 := by
  rw [step_print, reached_proceed, Machine.write_eq]

theorem console_step_input_of_flushed (rest : Program) {m : Machine}
    (h : m.console.nextFlush = .done) :
    (reached (step ⟨.input :: rest, m⟩)).console = m.console.flush.2.read.2 := by
  rw [reached_step_input, Machine.read_of_flushed h, Machine.console_receive]

theorem console_step_input_of_refused (rest : Program) {m : Machine} {e : IoError}
    (h : m.console.nextFlush = .failed e) :
    (reached (step ⟨.input :: rest, m⟩)).console = m.console.flush.2 := by
  rw [reached_step_input, Machine.read_of_refused h]

theorem console_step_counted (rest : Program) (m : Machine) (o : Operator) (n : Nat) :
    (reached (step ⟨.counted o n :: rest, m⟩)).console = m.console := by
  rw [step_counted, reached_proceed, Machine.console_apply]

theorem console_step_loop (body rest : Program) (m : Machine) :
    (reached (step ⟨.loop body :: rest, m⟩)).console = m.console := by
  rw [reached_step_loop]

/-! ### Failing steps -/

/-- The failure of a stream that a run has stopped with. -/
def streamFailure? : Progress Execution (Except Fault Unit × Machine) → Option IoError
  | .stopped (.error (.io e), _) => some e
  | _ => none

theorem streamFailure?_proceed (rest : Program) (x : Except IoError Unit) (m : Machine) :
    streamFailure? (proceed rest (x.mapError .io, m)) = failureOf x := by
  rcases x with e | ⟨⟩ <;> rfl

theorem streamFailure?_proceed_apply (rest : Program) (m : Machine) (o : Operator) (n : Nat) :
    streamFailure? (proceed rest (m.apply o n)) = none := by
  rcases hx : m.apply o n with ⟨x, m'⟩
  have hfst := m.apply_fst o n
  rw [hx] at hfst
  rcases hfst with rfl | ⟨v, rfl⟩ <;> rfl

theorem proceed_eq_stopped {rest : Program} {x r : Except Fault Unit × Machine}
    (h : proceed rest x = .stopped r) : x = r ∧ ∃ f, r.1 = .error f := by
  rcases x with ⟨f | ⟨⟩, m⟩
  · cases h
    exact ⟨rfl, f, rfl⟩
  · contradiction

/-- A run stops at its end or at a statement that fails. -/
theorem stopped_cases {e : Execution} {r : Except Fault Unit × Machine} (h : e.step = .stopped r) :
    (e.todo = [] ∧ e.machine.flush = r) ∨
    (∃ rest f, r.1 = .error f ∧ e.todo = .print :: rest ∧ e.machine.write = r) ∨
    (∃ rest f, r.1 = .error f ∧ e.todo = .input :: rest ∧ e.machine.read = r) ∨
    ∃ o n f, r.1 = .error f ∧ (∃ rest, e.todo = .counted o n :: rest) ∧
      e.machine.apply o n = r := by
  obtain ⟨todo, m⟩ := e
  cases todo with
  | nil => exact .inl ⟨rfl, Progress.stopped.inj h⟩
  | cons s rest =>
    cases s with
    | print =>
      obtain ⟨hr, f, hf⟩ := proceed_eq_stopped (x := m.write) h
      exact .inr (.inl ⟨rest, f, hf, rfl, hr⟩)
    | input =>
      obtain ⟨hr, f, hf⟩ := proceed_eq_stopped (x := m.read) h
      exact .inr (.inr (.inl ⟨rest, f, hf, rfl, hr⟩))
    | counted o n =>
      obtain ⟨hr, f, hf⟩ := proceed_eq_stopped (x := m.apply o n) h
      exact .inr (.inr (.inr ⟨o, n, f, hf, ⟨rest, rfl⟩, hr⟩))
    | loop body =>
      -- A loop is entered or passed, and never stops a run.
      unfold step at h
      simp only at h
      split at h <;> contradiction

end Execution

end Brainfuck
