/-!
# End of input

What an input statement stores once the input has run out.
-/

namespace Brainfuck

inductive EndOfInput where
  /-- The cell stays as it was. -/
  | unchanged
  /-- The cell becomes 0. -/
  | zero
  /-- The cell becomes 255. -/
  | max
deriving DecidableEq, Repr

namespace EndOfInput

/-- The value that is stored, if one is. -/
def stored? : EndOfInput → Option UInt8
  | unchanged => none
  | zero => some 0
  | max => some 255

def name : EndOfInput → String
  | unchanged => "Unchanged"
  | zero => "Zero"
  | max => "Max"

/-- The word that selects a behaviour on the command line. -/
def word : EndOfInput → String
  | unchanged => "unchanged"
  | zero => "zero"
  | max => "max"

def all : List EndOfInput := [unchanged, zero, max]

/-- A word that selects no behaviour. -/
structure UnknownWord where
  word : String
deriving DecidableEq, Repr

def UnknownWord.message (u : UnknownWord) : String := s!"invalid variant: {u.word}"

/-- ASCII letters in lower case, every other character as it is. -/
def foldCase (s : String) : String := s.map Char.toLower

/-- The behaviour that a word selects. The case of ASCII letters can be ignored. -/
def ofWord (word : String) (ignoreCase : Bool) : Except UnknownWord EndOfInput :=
  let written := if ignoreCase then foldCase word else word
  match all.find? (·.word == written) with
  | some e => .ok e
  | none => .error ⟨word⟩

theorem mem_all (e : EndOfInput) : e ∈ all := by
  cases e <;> decide

end EndOfInput

end Brainfuck
