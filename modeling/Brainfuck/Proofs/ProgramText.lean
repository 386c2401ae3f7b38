import Brainfuck.Program
import Brainfuck.Proofs.Brackets

/-!
# The text of a program

The characters that a program is written with. Their brackets are balanced.
-/

namespace Brainfuck

namespace Program

def chars (p : Program) : List Char := (symbols p).map Symbol.toChar

theorem toList_text (p : Program) : (text p).toList = chars p := String.toList_ofList

end Program

def Statement.chars (s : Statement) : List Char := s.symbols.map Symbol.toChar

theorem Program.chars_cons (s : Statement) (p : Program) :
    chars (s :: p) = s.chars ++ chars p := by
  simp [chars, symbols, Statement.chars]

theorem Statement.chars_counted (o : Operator) (n : Nat) :
    (counted o n).chars = List.replicate n (Symbol.operator o).toChar := by
  simp [chars, symbols]

theorem Statement.chars_loop (body : List Statement) :
    (loop body).chars = '[' :: (Program.chars body ++ [']']) := by
  simp [chars, symbols, Program.chars, Symbol.toChar]

mutual

theorem Statement.balanced_chars : (s : Statement) → Balanced s.chars
  | .print => balanced_other (by decide) (by decide)
  | .input => balanced_other (by decide) (by decide)
  | .counted o 0 => balanced_nil
  | .counted o (n + 1) => by
    have hone : Balanced [o.toChar] := by
      apply balanced_other <;> cases o <;> decide
    exact hone.append (Statement.balanced_chars (.counted o n))
  | .loop body => by
    rw [Statement.chars_loop]
    exact (Program.balanced_chars body).loop

theorem Program.balanced_chars : (p : Program) → Balanced (Program.chars p)
  | [] => balanced_nil
  | s :: rest => by
    rw [Program.chars_cons]
    exact (Statement.balanced_chars s).append (Program.balanced_chars rest)

end

end Brainfuck
