import Brainfuck.Text.Quoted
import Brainfuck.Token

/-!
# Parse errors

What can be wrong with a program, with the text that says so.
-/

namespace Brainfuck

inductive ParseError where
  /-- No statement begins with this token. -/
  | unexpectedToken (token : Token)
  /-- The source ended inside a loop, the innermost one open. -/
  | unterminatedLoop (openedAt ended : Span)
deriving DecidableEq, Repr

def ParseError.message : ParseError → String
  | unexpectedToken token =>
    s!"unexpected {token.kind.name} ({Text.quoted token.value}) at {token.span.text}" ++
      ", expected a statement"
  | unterminatedLoop openedAt ended =>
    s!"loop opened at {openedAt.text} is never closed, input ended at {ended.text}"

/-- The ways in which a single loop fails to parse. -/
inductive LoopError where
  /-- The token that was to open the loop is of another kind. -/
  | notOpened (found : TokenKind)
  | body (e : ParseError)
deriving DecidableEq, Repr

def LoopError.message : LoopError → String
  | notOpened found =>
    s!"assertion `left == right` failed\n  left: {found.name}\n right: {Symbol.leftBracket.name}"
  | body e => e.message

end Brainfuck
