import Brainfuck.Proofs.CallOrder
import Mathlib.Data.Stream.Init

/-!
# The delivery of input

The results of a reader are its answers without the interruptions, and ends for ever after. They are
handed to the input statements of a run in order, one to each whose flush succeeds.
-/

namespace Brainfuck

open Progress

/-! ## Results -/

open Stream' in
/-- What a reader delivers to one read after the other, each made again until it is not
interrupted. -/
def results (script : List ReadAnswer) : Stream' ReadAnswer :=
  script.filter (!·.isInterruption) ++ₛ Stream'.const .ended

theorem results_eq_cons (script : List ReadAnswer) :
    results script =
      Stream'.cons (settleRead script).answer (results (settleRead script).rest) := by
  induction script with
  | nil => exact Stream'.const_eq _
  | cons a script ih =>
    unfold results settleRead settle at *
    cases ha : a.isInterruption with
    | true => simpa [ha] using ih
    | false =>
      simp only [List.filter_cons, List.dropWhile_cons, ha]
      exact Stream'.cons_append_stream ..

namespace Execution

/-- The next statement is an input whose flush succeeds. -/
def takesResult (e : Execution) : Bool :=
  match e.todo with
  | .input :: _ => (e.machine.flush.1 matches .ok _)
  | _ => false

theorem takesResult_input_of_flushed (rest : Program) {m : Machine}
    (h : m.console.nextFlush = .done) : takesResult ⟨.input :: rest, m⟩ = true := by
  unfold takesResult
  simp only [Machine.flush_eq, Console.flush_eq, h]
  rfl

theorem takesResult_input_of_refused (rest : Program) {m : Machine} {x : IoError}
    (h : m.console.nextFlush = .failed x) : takesResult ⟨.input :: rest, m⟩ = false := by
  unfold takesResult
  simp only [Machine.flush_eq, Console.flush_eq, h]
  rfl

/-- A step takes the result that is due, or none. -/
theorem results_step (e : Execution) :
    results (reached e.step).console.input =
      (results e.machine.console.input).drop (if e.takesResult then 1 else 0) := by
  obtain ⟨todo, m⟩ := e
  cases todo with
  | nil =>
    rw [console_step_end, Console.flush_eq]
    rfl
  | cons s rest =>
    cases s with
    | print =>
      rw [console_step_print, Console.write_eq]
      rfl
    | input =>
      cases hf : m.console.nextFlush with
      | done =>
        rw [takesResult_input_of_flushed rest hf, console_step_input_of_flushed rest hf,
          results_eq_cons m.console.input, Console.read_eq, Console.flush_eq]
        rfl
      | failed x =>
        rw [takesResult_input_of_refused rest hf, console_step_input_of_refused rest hf,
          Console.flush_eq]
        rfl
    | counted o n =>
      rw [console_step_counted]
      rfl
    | loop body =>
      rw [console_step_loop]
      rfl

end Execution

/-! ## The policy -/

namespace Machine

theorem eof_atEnd (m : Machine) : m.atEnd.eof = m.eof := by
  unfold atEnd
  simp only
  split <;> rfl

theorem tape_atEnd (m : Machine) :
    m.atEnd.tape = match m.eof.stored? with
      | some v => m.tape.set m.pointer v
      | none => m.tape := by
  unfold atEnd record
  simp only
  cases m.eof.stored? <;> rfl

theorem eof_receive (m : Machine) (x : Except IoError (Option UInt8)) :
    (m.receive x).eof = m.eof := by
  rcases x with _ | _ | b
  · rfl
  · exact m.eof_atEnd
  · rfl

theorem eof_apply (m : Machine) (o : Operator) (n : Nat) : (m.apply o n).2.eof = m.eof := by
  cases o with
  | increment => rfl
  | decrement => rfl
  | shiftRight =>
    unfold apply shift
    simp only
    split <;> rfl
  | shiftLeft =>
    unfold apply shift
    simp only
    split
    · split <;> rfl
    · rfl

end Machine

theorem Execution.eof_step (e : Execution) : (reached e.step).eof = e.machine.eof := by
  obtain ⟨todo, m⟩ := e
  cases todo with
  | nil =>
    rw [step_end, Machine.flush_eq]
    rfl
  | cons s rest =>
    cases s with
    | print =>
      rw [step_print, reached_proceed, Machine.write_eq]
    | input =>
      rw [reached_step_input]
      cases hf : m.console.nextFlush with
      | done => rw [Machine.read_of_flushed hf, Machine.eof_receive]
      | failed x => rw [Machine.read_of_refused hf]
    | counted o n =>
      rw [step_counted, reached_proceed, Machine.eof_apply]
    | loop body => rw [reached_step_loop]

theorem results_interpret (p : Program) (m : Machine) (n : Nat) :
    results (Execution.reached (m.interpret n p)).console.input =
        (results m.console.input).drop
          ((passed Execution.step n ⟨p, m⟩).countP Execution.takesResult) ∧
      (Execution.reached (m.interpret n p)).eof = m.eof := by
  refine passed_induction Execution.step ⟨p, m⟩
    (P := fun executed run =>
      results (Execution.reached run).console.input =
          (results m.console.input).drop (executed.countP Execution.takesResult) ∧
        (Execution.reached run).eof = m.eof) ?_ ?_ n
  · exact ⟨rfl, rfl⟩
  · rintro executed e ⟨hresults, heof⟩
    constructor
    · rw [Execution.results_step]
      change results e.machine.console.input = _ at hresults
      rw [hresults, Stream'.drop_drop, List.countP_append, List.countP_singleton]
    · rw [Execution.eof_step]
      exact heof

/-! ## What an input does -/

/-- The current cell gets the value, if there is one, and nothing else of the machine changes but
what its calls change. -/
structure Stores (m : Machine) (v? : Option UInt8) (m' : Machine) : Prop where
  pointer_eq : m'.pointer = m.pointer
  tape_eq : m'.tape = match v? with
    | some v => m.tape.set m.pointer v
    | none => m.tape
  output_eq : m'.console.output = m.console.output

/-- What an input statement comes to with the result that it takes. -/
inductive Receives (eof : EndOfInput) (rest : Program) (m : Machine) :
    ReadAnswer → Progress Execution (Except Fault Unit × Machine) → Prop
  | byte {b : UInt8} {m' : Machine} : Stores m (some b) m' →
      Receives eof rest m (.byte b) (.running ⟨rest, m'⟩)
  | unchanged {m' : Machine} : eof = .unchanged → Stores m none m' →
      Receives eof rest m .ended (.running ⟨rest, m'⟩)
  | zero {m' : Machine} : eof = .zero → Stores m (some 0) m' →
      Receives eof rest m .ended (.running ⟨rest, m'⟩)
  | max {m' : Machine} : eof = .max → Stores m (some 255) m' →
      Receives eof rest m .ended (.running ⟨rest, m'⟩)
  | failed {x : IoError} {m' : Machine} : Stores m none m' →
      Receives eof rest m (.failed x) (.stopped (.error (.io x), m'))

theorem stores_atEnd (m : Machine) {c : Console} (h : c.output = m.console.output) :
    Stores m m.eof.stored? ({ m with console := c } : Machine).atEnd := by
  refine ⟨Machine.pointer_atEnd _, Machine.tape_atEnd _, ?_⟩
  rw [Machine.console_atEnd]
  exact h

theorem receives_of_flushed (rest : Program) {m : Machine} (h : m.console.nextFlush = .done) :
    Receives m.eof rest m (settleRead m.console.input).answer
      (Execution.step ⟨.input :: rest, m⟩) := by
  have houtput : m.console.flush.2.read.2.output = m.console.output := by
    rw [Console.read_eq, Console.flush_eq]
  rw [Execution.step_input, Machine.read_of_flushed h]
  cases (settleRead m.console.input).answer with
  | byte b => exact .byte ⟨rfl, rfl, houtput⟩
  | ended =>
    have hstores := stores_atEnd m houtput
    cases heof : m.eof with
    | unchanged => exact .unchanged rfl (by rwa [heof] at hstores)
    | zero => exact .zero rfl (by rwa [heof] at hstores)
    | max => exact .max rfl (by rwa [heof] at hstores)
  | failed x => exact .failed ⟨rfl, rfl, houtput⟩

theorem stores_of_refused (rest : Program) {m : Machine} {x : IoError}
    (h : m.console.nextFlush = .failed x) :
    ∃ m', Execution.step ⟨.input :: rest, m⟩ = .stopped (.error (.io x), m') ∧ Stores m none m' ∧
      m'.console.input = m.console.input := by
  refine ⟨{ m with console := m.console.flush.2 }, ?_, ⟨rfl, rfl, ?_⟩, ?_⟩
  · rw [Execution.step_input, Machine.read_of_refused h]
    rfl
  · rw [Console.flush_eq]
  · rw [Console.flush_eq]

theorem callsSince_of_flushed (rest : Program) {m : Machine} (h : m.console.nextFlush = .done) :
    ∃ interruptions : List ReadAnswer, (∀ i ∈ interruptions, i.isInterruption) ∧
      m.callsSince (Execution.reached (Execution.step ⟨.input :: rest, m⟩)) = .flush .done ::
        (interruptions ++ [(settleRead m.console.input).answer]).map .read := by
  have hcalls : m.callsSince (Execution.reached (Execution.step ⟨.input :: rest, m⟩)) =
      Execution.calls ⟨.input :: rest, m⟩ := Machine.callsSince_eq (Execution.calls_step _)
  refine ⟨(settleRead m.console.input).interruptions, fun i hi =>
    isInterruption_of_mem_interruptions hi, ?_⟩
  rw [hcalls, Execution.calls]
  simp only [h]
  rfl

/-! ## In order -/

/-- Each input takes the result that is due. -/
theorem input_takes_its_result (p : Program) (m m₁ : Machine) (rest : Program) (n : Nat)
    (h : m.interpret n p = .running ⟨.input :: rest, m₁⟩) :
    let k := (passed Execution.step n ⟨p, m⟩).countP Execution.takesResult
    let after := Execution.step ⟨.input :: rest, m₁⟩
    (m₁.flush.1 = .ok () →
      Receives m.eof rest m₁ ((results m.console.input).get k) after ∧
      results (Execution.reached after).console.input = (results m.console.input).drop (k + 1) ∧
      ∃ interruptions : List ReadAnswer, (∀ i ∈ interruptions, i.isInterruption) ∧
        m₁.callsSince (Execution.reached after) = .flush .done ::
          (interruptions ++ [(results m.console.input).get k]).map .read) ∧
    ∀ f, m₁.flush.1 = .error f → ∃ m₂, after = .stopped (.error f, m₂) ∧ Stores m₁ none m₂ ∧
      m₂.console.input = m₁.console.input ∧
      results m₂.console.input = (results m.console.input).drop k := by
  intro k after
  obtain ⟨hresults, heof⟩ := results_interpret p m n
  rw [h] at hresults heof
  replace hresults : results m₁.console.input = (results m.console.input).drop k := hresults
  replace heof : m₁.eof = m.eof := heof
  constructor
  · intro hok
    have hf := Machine.nextFlush_of_flush_ok hok
    -- What settles the read is the first result that is left.
    have hdue : (results m.console.input).get k = (settleRead m₁.console.input).answer := by
      rw [← Stream'.head_drop, ← hresults, results_eq_cons]
      rfl
    rw [hdue, ← heof]
    refine ⟨receives_of_flushed rest hf, ?_, callsSince_of_flushed rest hf⟩
    rw [Execution.results_step, Execution.takesResult_input_of_flushed rest hf, hresults,
      Stream'.drop_drop]
    rfl
  · intro f hfail
    obtain ⟨x, rfl, hf⟩ := Machine.nextFlush_of_flush_error hfail
    obtain ⟨m₂, hstop, hstores, hinput⟩ := stores_of_refused rest hf
    exact ⟨m₂, hstop, hstores, hinput, hinput ▸ hresults⟩

theorem input_takes_its_result_after_an_end :
    let p : Program := [.input, .input, .input]
    let m := Machine.ofConsole .max (.ofScripts [.failed ⟨.interrupted, "again"⟩, .byte 7, .ended,
      .failed ⟨.interrupted, "again"⟩, .byte 9] [] [])
    ∃ m₁, m.interpret 2 p = .running ⟨[.input], m₁⟩ ∧ m₁.value = 255 ∧ m₁.flush.1 = .ok () ∧
      Receives .max [] m₁ (.byte 9) (Execution.step ⟨[.input], m₁⟩) := by
  intro p m
  refine ⟨_, rfl, ?_, rfl, ?_⟩
  · decide +kernel
  · exact ((input_takes_its_result p m _ [] 2 rfl).1 rfl).1

end Brainfuck
