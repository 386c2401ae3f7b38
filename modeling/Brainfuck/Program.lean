import Brainfuck.Symbol

/-!
# Programs

A program is a list of statements. A run of one operator is a single statement with a count, and a
loop owns its body. Counts are free here: 0, neighbours of the same operator and empty loops are
programs too.
-/

namespace Brainfuck

inductive Statement where
  | print
  | input
  | counted (o : Operator) (count : Nat)
  | loop (body : List Statement)
deriving Repr

abbrev Program := List Statement

namespace Statement

def name : Statement → String
  | print => "Print"
  | input => "Input"
  | counted o _ => o.name
  | loop _ => "Loop"

/-! ## Equality -/

mutual

def decEq : (s t : Statement) → Decidable (s = t)
  | print, print => isTrue rfl
  | input, input => isTrue rfl
  | counted o n, counted p m =>
    if h : o = p ∧ n = m then isTrue (by rw [h.1, h.2]) else isFalse (by simpa using h)
  | loop b, loop c =>
    match decEqList b c with
    | isTrue h => isTrue (h ▸ rfl)
    | isFalse h => isFalse (by simpa using h)
  | print, input | print, counted .. | print, loop _
  | input, print | input, counted .. | input, loop _
  | counted .., print | counted .., input | counted .., loop _
  | loop _, print | loop _, input | loop _, counted .. => isFalse (by simp)

def decEqList : (b c : List Statement) → Decidable (b = c)
  | [], [] => isTrue rfl
  | [], _ :: _ | _ :: _, [] => isFalse (by simp)
  | s :: b, t :: c =>
    match decEq s t, decEqList b c with
    | isTrue h, isTrue k => isTrue (h ▸ k ▸ rfl)
    | isFalse h, _ => isFalse (by simp [h])
    | _, isFalse k => isFalse (by simp [k])

end

instance : DecidableEq Statement := decEq

end Statement

/-! ## Depth -/

mutual

/-- How deeply loops nest, counting the statement itself. -/
def Statement.depth : Statement → Nat
  | .loop body => Program.depth body + 1
  | .print | .input | .counted .. => 0

/-- How deeply loops nest, 0 if there are none. -/
def Program.depth : Program → Nat
  | [] => 0
  | s :: rest => max s.depth (Program.depth rest)

end

/-! ## The program as symbols -/

mutual

def Statement.symbols : Statement → List Symbol
  | .print => [.dot]
  | .input => [.comma]
  | .counted o count => List.replicate count (.operator o)
  | .loop body => .leftBracket :: (Program.symbols body ++ [.rightBracket])

/-- The symbols that the program is written with. -/
def Program.symbols : Program → List Symbol
  | [] => []
  | s :: rest => s.symbols ++ Program.symbols rest

end

namespace Program

theorem symbols_append (p q : Program) : symbols (p ++ q) = symbols p ++ symbols q := by
  induction p with
  | nil => rfl
  | cons s p ih => simp [symbols, ih]

theorem depth_append (p q : Program) : depth (p ++ q) = max (depth p) (depth q) := by
  induction p with
  | nil => simp [depth]
  | cons s p ih => simp [depth, ih, Nat.max_assoc]

/-- The program as text, without comments. -/
def text (p : Program) : String := String.ofList ((symbols p).map Symbol.toChar)

/-- The names of the statements of the outermost block. -/
def names (p : Program) : List String := p.map Statement.name

end Program

end Brainfuck
