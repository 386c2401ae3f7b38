import Brainfuck.Channel
import Brainfuck.EndOfInput
import Brainfuck.Token

/-!
# Log events

What scanning, parsing and running record, each kind with its level and its line of text.
-/

namespace Brainfuck

inductive Event where
  | scannedToken (kind : TokenKind) (span : Span)
  | enteringLoop (span : Span)
  | leavingLoop (span : Span) (statements : Nat)
  | parsedProgram (statements depth : Nat)
  | readingFailed (position : Nat) (error : IoError)
  | inputExhausted (eof : EndOfInput) (pointer : Int)
deriving DecidableEq, Repr

namespace Event

inductive Level where
  | warn
  | debug
  | trace
deriving DecidableEq, Repr

def Level.name : Level → String
  | warn => "WARN"
  | debug => "DEBUG"
  | trace => "TRACE"

def level : Event → Level
  | scannedToken .. | enteringLoop .. | leavingLoop .. => .trace
  | parsedProgram .. | inputExhausted .. => .debug
  | readingFailed .. => .warn

def message : Event → String
  | scannedToken kind span => s!"scanned token kind={kind.name} span={span.text}"
  | enteringLoop span => s!"entering loop span={span.text}"
  | leavingLoop span statements => s!"leaving loop span={span.text} statements={statements}"
  | parsedProgram statements depth => s!"parsed program statements={statements} depth={depth}"
  | readingFailed position error =>
    s!"reading source failed, treating as end of input position={position} error={error.text}"
  | inputExhausted eof pointer => s!"input exhausted eof={eof.name} pointer={pointer}"

/-- The line of the log, level first. -/
def text (e : Event) : String := s!"{e.level.name} {e.message}"

end Event

end Brainfuck
