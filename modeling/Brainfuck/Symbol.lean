/-!
# The eight symbols

Four symbols are operators and act on the pointer or the current cell. A run of the same operator
is one statement with a count. The other four stand for themselves.
-/

namespace Brainfuck

inductive Operator where
  | shiftLeft
  | shiftRight
  | increment
  | decrement
deriving DecidableEq, Repr

inductive Symbol where
  | dot
  | comma
  | operator (o : Operator)
  | leftBracket
  | rightBracket
deriving DecidableEq, Repr

namespace Operator

def toChar : Operator → Char
  | shiftLeft => '<'
  | shiftRight => '>'
  | increment => '+'
  | decrement => '-'

/-- The name of the statement that a run of the operator makes. -/
def name : Operator → String
  | shiftLeft => "ShiftLeft"
  | shiftRight => "ShiftRight"
  | increment => "Increment"
  | decrement => "Decrement"

end Operator

namespace Symbol

def toChar : Symbol → Char
  | dot => '.'
  | comma => ','
  | operator o => o.toChar
  | leftBracket => '['
  | rightBracket => ']'

/-- The symbol that a character is. Every other character is a comment. -/
def ofChar? (c : Char) : Option Symbol :=
  if c = '.' then some dot
  else if c = ',' then some comma
  else if c = '<' then some (operator .shiftLeft)
  else if c = '>' then some (operator .shiftRight)
  else if c = '+' then some (operator .increment)
  else if c = '-' then some (operator .decrement)
  else if c = '[' then some leftBracket
  else if c = ']' then some rightBracket
  else none

def name : Symbol → String
  | dot => "Dot"
  | comma => "Comma"
  | operator .shiftLeft => "LeftAngleBracket"
  | operator .shiftRight => "RightAngleBracket"
  | operator .increment => "Plus"
  | operator .decrement => "Minus"
  | leftBracket => "LeftBracket"
  | rightBracket => "RightBracket"

@[simp] theorem ofChar?_toChar (s : Symbol) : ofChar? s.toChar = some s := by
  rcases s with _ | _ | ⟨_ | _ | _ | _⟩ | _ | _ <;> decide

theorem ofChar?_eq_some_iff {c : Char} {s : Symbol} : ofChar? c = some s ↔ c = s.toChar := by
  refine ⟨fun h => ?_, fun h => h ▸ ofChar?_toChar s⟩
  unfold ofChar? at h
  repeat' split at h
  all_goals first
    | cases h; assumption
    | contradiction

end Symbol

end Brainfuck
