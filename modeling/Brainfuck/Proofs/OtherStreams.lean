import Brainfuck.Proofs.Calls
import Brainfuck.Proofs.Simulation

/-!
# The same run on other streams

Two runs of one program whose machines differ in nothing but their streams. As long as the calls that
they make come to the same, they take each step together.
-/

namespace Brainfuck

open Progress

namespace Machine

def withConsole (m : Machine) (c : Console) : Machine := { m with console := c }

theorem flush_withConsole (m : Machine) (c : Console) :
    (m.withConsole c).flush = (c.flush.1.mapError .io, m.withConsole c.flush.2) := flush_eq _

theorem write_withConsole (m : Machine) (c : Console) :
    (m.withConsole c).write =
      ((c.write m.value).1.mapError .io, m.withConsole (c.write m.value).2) := write_eq _

theorem receive_withConsole (m : Machine) (c : Console) (x : Except IoError (Option UInt8)) :
    (m.withConsole c).receive x = (m.receive x).withConsole c := by
  rcases x with _ | _ | b
  · rfl
  · unfold receive atEnd withConsole
    simp only [record]
    split <;> rfl
  · rfl

theorem read_withConsole_of_flushed (m : Machine) {c : Console} (h : c.nextFlush = .done) :
    (m.withConsole c).read =
      (((settleRead c.input).answer.outcome.map fun _ => ()).mapError .io,
        (m.receive (settleRead c.input).answer.outcome).withConsole c.flush.2.read.2) := by
  rw [← receive_withConsole]
  exact read_of_flushed h

theorem read_withConsole_of_refused (m : Machine) {c : Console} {e : IoError}
    (h : c.nextFlush = .failed e) :
    (m.withConsole c).read = (.error (.io e), m.withConsole c.flush.2) := read_of_refused h

theorem shift_withConsole (m : Machine) (c : Console) (d : Int) :
    (m.withConsole c).shift d = ((m.shift d).1, (m.shift d).2.withConsole c) := by
  unfold shift
  change (if inWord (m.pointer + d) then _ else _) = _
  split <;> rfl

theorem apply_withConsole (m : Machine) (c : Console) (o : Operator) (n : Nat) :
    (m.withConsole c).apply o n = ((m.apply o n).1, (m.apply o n).2.withConsole c) := by
  cases o with
  | increment => rfl
  | decrement => rfl
  | shiftRight => exact m.shift_withConsole c _
  | shiftLeft =>
    unfold apply
    simp only
    split
    · exact m.shift_withConsole c _
    · rfl

end Machine

/-! ## Side by side -/

/-- The streams are related, and all else is the same. -/
structure Beside (Q : Console → Console → Prop) (m m' : Machine) : Prop where
  machine_eq : m' = m.withConsole m'.console
  consoles : Q m.console m'.console

structure ExecutionsBeside (Q : Console → Console → Prop) (e e' : Execution) : Prop where
  todo_eq : e'.todo = e.todo
  beside : Beside Q e.machine e'.machine

structure EndsBeside (Q : Console → Console → Prop) (r r' : Except Fault Unit × Machine) : Prop where
  result_eq : r'.1 = r.1
  beside : Beside Q r.2 r'.2

/-- Two calls come to the same, and leave related streams. -/
structure CalledAlike {α : Type} (Q : Console → Console → Prop)
    (x x' : Except IoError α × Console) : Prop where
  outcome_eq : x'.1 = x.1
  consoles : Q x.2 x'.2

/-- A run has done the same to both machines, whatever it has asked of their streams. -/
structure SameEffect (m m' : Machine) : Prop where
  pointer_eq : m'.pointer = m.pointer
  tape_eq : m'.tape = m.tape
  eof_eq : m'.eof = m.eof
  log_eq : m'.log = m.log
  output_eq : m'.console.output = m.console.output

variable {Q : Console → Console → Prop} {m : Machine} {c : Console} {rest : Program}

theorem Beside.sameEffect {m' : Machine} (h : Beside Q m m')
    (houtput : m'.console.output = m.console.output) : SameEffect m m' := by
  have heq := h.machine_eq
  generalize m'.console = c at heq houtput
  subst heq
  exact ⟨rfl, rfl, rfl, rfl, houtput⟩

theorem beside_withConsole (h : Q m.console c) : Beside Q m (m.withConsole c) := ⟨rfl, h⟩

theorem alongside_proceed {x : Except Fault Unit} {m m' : Machine} (h : Beside Q m m') :
    Alongside (ExecutionsBeside Q) (EndsBeside Q) (Execution.proceed rest (x, m))
      (Execution.proceed rest (x, m')) := by
  rcases x with f | ⟨⟩
  · exact .stopped ⟨rfl, h⟩
  · exact .running ⟨rfl, h⟩

abbrev StepsAlongside (Q : Console → Console → Prop) (todo : Program) (m : Machine) (c : Console) :
    Prop :=
  Alongside (ExecutionsBeside Q) (EndsBeside Q) (Execution.step ⟨todo, m⟩)
    (Execution.step ⟨todo, m.withConsole c⟩)

theorem stepsAlongside_end (h : CalledAlike Q m.console.flush c.flush) :
    StepsAlongside Q [] m c := by
  rw [StepsAlongside, Execution.step_end, Execution.step_end, Machine.flush_eq,
    Machine.flush_withConsole, h.outcome_eq]
  exact .stopped ⟨rfl, beside_withConsole h.consoles⟩

theorem stepsAlongside_print (h : CalledAlike Q (m.console.write m.value) (c.write m.value)) :
    StepsAlongside Q (.print :: rest) m c := by
  rw [StepsAlongside, Execution.step_print, Execution.step_print, Machine.write_eq,
    Machine.write_withConsole, h.outcome_eq]
  exact alongside_proceed (beside_withConsole h.consoles)

theorem stepsAlongside_input (hflush : CalledAlike Q m.console.flush c.flush)
    (hread : m.console.nextFlush = .done →
      CalledAlike Q m.console.flush.2.read c.flush.2.read) :
    StepsAlongside Q (.input :: rest) m c := by
  rw [StepsAlongside, Execution.step_input, Execution.step_input]
  -- Both flushes have the same outcome, so both inputs read or neither does.
  have hnext : c.nextFlush = m.console.nextFlush := by
    have houtcome := hflush.outcome_eq
    rw [Console.flush_eq, Console.flush_eq] at houtcome
    exact FlushAnswer.outcome_inj houtcome
  cases hf : m.console.nextFlush with
  | done =>
    have hsettled := (hread hf).outcome_eq
    rw [Console.read_flush_fst, Console.read_flush_fst] at hsettled
    have hself : m.read = _ := m.read_withConsole_of_flushed hf
    rw [hself, m.read_withConsole_of_flushed (hnext.trans hf), hsettled]
    exact alongside_proceed ⟨rfl, (hread hf).consoles⟩
  | failed x =>
    rw [Machine.read_of_refused hf, m.read_withConsole_of_refused (hnext.trans hf)]
    exact alongside_proceed (beside_withConsole hflush.consoles)

theorem stepsAlongside_counted (h : Q m.console c) (o : Operator) (n : Nat) :
    StepsAlongside Q (.counted o n :: rest) m c := by
  rw [StepsAlongside, Execution.step_counted, Execution.step_counted, Machine.apply_withConsole]
  have hbeside : Beside Q (m.apply o n).2 ((m.apply o n).2.withConsole c) := by
    apply beside_withConsole
    rwa [Machine.console_apply]
  exact alongside_proceed hbeside

theorem stepsAlongside_loop (h : Q m.console c) (body : Program) :
    StepsAlongside Q (.loop body :: rest) m c := by
  have hzero : (m.withConsole c).isZero = m.isZero := rfl
  unfold StepsAlongside Execution.step
  simp only [hzero]
  split
  · exact .running ⟨rfl, beside_withConsole h⟩
  · exact .running ⟨rfl, beside_withConsole h⟩

theorem alongside_interpret
    (hstep : ∀ {m : Machine} {c : Console}, Q m.console c → ∀ todo, StepsAlongside Q todo m c)
    {m m' : Machine} (h : Beside Q m m') (p : Program) (n : Nat) :
    Alongside (ExecutionsBeside Q) (EndsBeside Q) (m.interpret n p) (m'.interpret n p) := by
  refine alongside_follow ?_ ⟨rfl, h⟩ n
  rintro ⟨todo, m₁⟩ ⟨todo', m₂⟩ ⟨htodo, hbeside⟩
  obtain rfl : todo' = todo := htodo
  have halong := hstep hbeside.consoles todo'
  rwa [StepsAlongside, ← hbeside.machine_eq] at halong

end Brainfuck
