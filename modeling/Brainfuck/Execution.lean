import Brainfuck.Machine
import Brainfuck.Program
import Brainfuck.Progress

/-!
# Execution

A program runs one statement at a time. A loop whose cell is not 0 puts its body before itself. When
no statement is left the output is flushed, and the run is over. A run may go on for ever, so it is
followed for a number of steps.
-/

namespace Brainfuck

/-- A run under way. -/
structure Execution where
  /-- The statements still to be carried out. -/
  todo : Program
  machine : Machine

namespace Execution

/-- Goes on with `rest` unless the statement before it failed. -/
def proceed (rest : Program) :
    Except Fault Unit × Machine → Progress Execution (Except Fault Unit × Machine)
  | (.ok (), m) => .running ⟨rest, m⟩
  | (.error e, m) => .stopped (.error e, m)

def step (e : Execution) : Progress Execution (Except Fault Unit × Machine) :=
  match e.todo with
  | [] => .stopped e.machine.flush
  | .print :: rest => proceed rest e.machine.write
  | .input :: rest => proceed rest e.machine.read
  | .counted o count :: rest => proceed rest (e.machine.apply o count)
  | .loop body :: rest =>
    if e.machine.isZero then .running ⟨rest, e.machine⟩
    else .running ⟨body ++ .loop body :: rest, e.machine⟩

end Execution

/-- The run of a program on a machine, followed for at most `steps` steps. -/
def Machine.interpret (steps : Nat) (p : Program) (m : Machine) :
    Progress Execution (Except Fault Unit × Machine) :=
  Progress.follow Execution.step steps ⟨p, m⟩

end Brainfuck
