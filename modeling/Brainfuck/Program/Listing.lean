import Brainfuck.Program

/-!
# Programs as C code

Each statement becomes a line of C that works on a byte array `memory` at the index `current`, and a
loop becomes a block. The code does not check its bounds. A listing gathers the lines of one program
after another, all at the same starting level.
-/

namespace Brainfuck

inductive CodeLine where
  | print
  | input
  | counted (o : Operator) (count : Nat)
  | blockStart
  | blockEnd
deriving DecidableEq, Repr

/-- A step by one has a form of its own. -/
def CodeLine.text : CodeLine → String
  | print => "putchar(memory[current]);"
  | input => "memory[current] = getchar();"
  | counted .shiftLeft 1 => "current--;"
  | counted .shiftLeft count => s!"current -= {count};"
  | counted .shiftRight 1 => "current++;"
  | counted .shiftRight count => s!"current += {count};"
  | counted .increment 1 => "memory[current]++;"
  | counted .increment count => s!"memory[current] += {count};"
  | counted .decrement 1 => "memory[current]--;"
  | counted .decrement count => s!"memory[current] -= {count};"
  | blockStart => "while (memory[current] != 0) \x7b"
  | blockEnd => "\x7d"

structure IndentedLine where
  level : Nat
  line : CodeLine
deriving DecidableEq, Repr

/-- The indentation of one level. -/
def indentUnit : String := "    "

def IndentedLine.text (l : IndentedLine) : String :=
  String.join (List.replicate l.level indentUnit) ++ l.line.text ++ "\n"

theorem toList_indentation (level : Nat) :
    (String.join (List.replicate level indentUnit)).toList = List.replicate (4 * level) ' ' := by
  induction level with
  | zero => decide
  | succ level ih =>
    have hunit : indentUnit.toList = List.replicate 4 ' ' := by decide
    rw [List.replicate_succ, String.join_cons, String.toList_append, ih, hunit,
      List.replicate_append_replicate]
    congr 1
    omega

theorem IndentedLine.toList_text (l : IndentedLine) :
    l.text.toList =
      (String.join (List.replicate l.level indentUnit)).toList ++ (l.line.text.toList ++ ['\n']) := by
  rw [IndentedLine.text, String.toList_append, String.toList_append, List.append_assoc]
  rfl

mutual

def Statement.codeLines (level : Nat) : Statement → List IndentedLine
  | .print => [⟨level, .print⟩]
  | .input => [⟨level, .input⟩]
  | .counted o count => [⟨level, .counted o count⟩]
  | .loop body => ⟨level, .blockStart⟩ :: (Program.codeLines (level + 1) body ++ [⟨level, .blockEnd⟩])

def Program.codeLines (level : Nat) : Program → List IndentedLine
  | [] => []
  | s :: rest => s.codeLines level ++ Program.codeLines level rest

end

theorem Program.codeLines_append (level : Nat) (p q : Program) :
    codeLines level (p ++ q) = codeLines level p ++ codeLines level q := by
  induction p with
  | nil => rfl
  | cons s p ih => simp [codeLines, ih]

structure Listing where
  level : Nat
  lines : List IndentedLine
deriving DecidableEq, Repr

namespace Listing

def atLevel (level : Nat) : Listing := ⟨level, []⟩

def load (l : Listing) (p : Program) : Listing :=
  { l with lines := l.lines ++ Program.codeLines l.level p }

def text (l : Listing) : String := String.join (l.lines.map IndentedLine.text)

theorem text_load (l : Listing) (p : Program) :
    (l.load p).text = l.text ++ String.join ((Program.codeLines l.level p).map IndentedLine.text) := by
  simp [load, text]

theorem text_atLevel_load (level : Nat) (p : Program) :
    ((atLevel level).load p).text =
      String.join ((Program.codeLines level p).map IndentedLine.text) := by
  simp [load, text, atLevel]

theorem foldl_load (programs : List Program) (l : Listing) :
    programs.foldl load l =
      { l with lines := l.lines ++ programs.flatMap (Program.codeLines l.level) } := by
  induction programs generalizing l with
  | nil => simp
  | cons p programs ih => simp [ih, load]

theorem load_append (l : Listing) (p q : Program) : l.load (p ++ q) = (l.load p).load q := by
  simp [load, Program.codeLines_append]

end Listing

namespace Program

/-- The lines of the program alone. -/
def listing (p : Program) : String := ((Listing.atLevel 0).load p).text

/-- A complete C program with an array of `memorySize` cells. -/
def wholeListing (p : Program) (memorySize : Nat) : String :=
  s!"#include <stdio.h>\n\nunsigned char memory[{memorySize}];\nlong long current = 0;\n\n" ++
    "int main(void) \x7b\n" ++ ((Listing.atLevel 1).load p).text ++
    indentUnit ++ "return 0;\n\x7d\n"

end Program

end Brainfuck
