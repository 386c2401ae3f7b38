import Brainfuck.Program

/-!
# Programs as trees

A program is drawn with one line for each statement, under a line for the program itself. Cells of
four columns stand before the name of a statement, one for each block around it.
-/

namespace Brainfuck

/-- A cell of a drawing. -/
inductive Edge where
  /-- Passes by, to a later statement of an outer block. -/
  | bar
  | gap
  /-- Leads to a statement that others follow. -/
  | branch
  /-- Leads to the last statement of its block. -/
  | corner
deriving DecidableEq, Repr

def Edge.text : Edge → String
  | bar => "│   "
  | gap => "    "
  | branch => "├── "
  | corner => "└── "

structure TreeLine where
  edges : List Edge
  label : String
deriving DecidableEq, Repr

def TreeLine.text (l : TreeLine) : String := String.join (l.edges.map Edge.text) ++ l.label ++ "\n"

/-- The name of a statement, with its count if it has one. -/
def Statement.label : Statement → String
  | .counted o count => s!"{o.name} ({count})"
  | s => s.name

mutual

/-- The lines of a statement that stands behind `indent`. -/
def Statement.treeLines (indent : List Edge) (isLast : Bool) : Statement → List TreeLine
  | .loop body =>
    ⟨indent ++ [if isLast then .corner else .branch], (Statement.loop body).label⟩ ::
      Program.treeLines (indent ++ [if isLast then .gap else .bar]) body
  | s => [⟨indent ++ [if isLast then .corner else .branch], s.label⟩]

def Program.treeLines (indent : List Edge) : Program → List TreeLine
  | [] => []
  | s :: rest => s.treeLines indent rest.isEmpty ++ Program.treeLines indent rest

end

/-- The drawing of a whole program. -/
def Program.tree (p : Program) : String :=
  "CompilationUnit\n" ++ String.join ((Program.treeLines [] p).map TreeLine.text)

end Brainfuck
