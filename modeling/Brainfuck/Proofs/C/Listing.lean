import Brainfuck.Program.Listing
import Brainfuck.Proofs.C.Reading

/-!
# Listings read back

The reader finds in a listing what each statement was translated to.
-/

namespace Brainfuck.C

def target : Operator → Target
  | .shiftLeft | .shiftRight => .current
  | .increment | .decrement => .cell

def sign : Operator → Sign
  | .shiftLeft | .decrement => .minus
  | .shiftRight | .increment => .plus

mutual

def ofStatement : Brainfuck.Statement → Statement
  | .print => .putchar
  | .input => .getchar
  | .counted o count => .change (target o) (sign o) count
  | .loop body => .loop (ofProgram body)

def ofProgram : Program → List Statement
  | [] => []
  | s :: rest => ofStatement s :: ofProgram rest

end

theorem ofProgram_append (p q : Program) : ofProgram (p ++ q) = ofProgram p ++ ofProgram q := by
  induction p with
  | nil => rfl
  | cons s p ih => rw [List.cons_append, ofProgram, ofProgram, ih, List.cons_append]

/-! ## Lines -/

def ofLine : CodeLine → Clause
  | .print => .simple .putchar
  | .input => .simple .getchar
  | .counted o count => .simple (.change (target o) (sign o) count)
  | .blockStart => .blockStart
  | .blockEnd => .blockEnd

theorem reads_fixed {text : List Char} {c : Clause} (hscan : (Scanner.scan ⟨[], []⟩ text).begun = [])
    (hone : isClause (lexemes text)) (hc : clause? (lexemes text) = some c) : Reads text [c] :=
  reads_one (lexes_of_scan hscan) hone hc

theorem reads_numbered (opening : String) (d : Char) (closing : List Char) {n : Nat} {c : Clause}
    (hd : Scanner.isWordChar d = false)
    (hopening : (Scanner.scan ⟨[], []⟩ opening.toList).begun = [])
    (hclosing : (Scanner.scan ⟨[], []⟩ (d :: closing)).begun = [])
    (hbefore : ∀ l ∈ lexemes opening.toList, closes l = false)
    (hone : isClause (lexemes (d :: closing)))
    (hc : clause? (lexemes opening.toList ++ n.repr :: lexemes (d :: closing)) = some c) :
    Reads (opening.toList ++ (n.repr.toList ++ d :: closing)) [c] := by
  refine reads_one ((lexes_of_scan hopening).append (lexes_number n hd (lexes_of_scan hclosing)))
    ?_ hc
  rw [isClause_append hbefore, isClause, closes_repr, if_neg (by decide)]
  exact hone

def opening : Operator → String
  | .shiftLeft => "current -= "
  | .shiftRight => "current += "
  | .increment => "memory[current] += "
  | .decrement => "memory[current] -= "

theorem toList_text_counted (o : Operator) {n : Nat} (h : n ≠ 1) :
    (CodeLine.counted o n).text.toList = (opening o).toList ++ (n.repr.toList ++ [';']) := by
  have htext : (CodeLine.counted o n).text = opening o ++ n.repr ++ ";" := by
    rcases n with _ | _ | n
    · cases o <;> rfl
    · contradiction
    · cases o <;> rfl
  have hend : ";".toList = [';'] := by decide
  rw [htext, String.toList_append, String.toList_append, hend, List.append_assoc]

/-- The characters of a line that changes the pointer or a cell. -/
def isChangeChar (c : Char) : Bool := c.isDigit || "memory[current] +-=;".toList.contains c

theorem all_isChangeChar (o : Operator) (n : Nat) :
    (CodeLine.counted o n).text.toList.all isChangeChar = true := by
  by_cases hn : n = 1
  · subst hn
    cases o <;> decide
  · have hopening : (opening o).toList.all isChangeChar = true := by cases o <;> decide
    have hrepr : n.repr.toList.all isChangeChar = true := by
      rw [List.all_eq_true]
      intro c hc
      simp [isChangeChar, isDigit_of_mem_repr hc]
    rw [toList_text_counted o hn, List.all_append, List.all_append, hopening, hrepr]
    decide

theorem not_mem_text_counted (o : Operator) (n : Nat) {c : Char} (h : isChangeChar c = false) :
    c ∉ (CodeLine.counted o n).text.toList := by
  intro hmem
  rw [List.all_eq_true.1 (all_isChangeChar o n) c hmem] at h
  contradiction

theorem reads_counted (o : Operator) (n : Nat) :
    Reads ((CodeLine.counted o n).text.toList ++ ['\n']) [ofLine (.counted o n)] := by
  by_cases hn : n = 1
  · subst hn
    cases o <;> exact reads_fixed (by decide) (by decide) rfl
  · have hc : ∀ target sign, changeBy? target sign n.repr = some (.simple (.change target sign n)) := by
      intro target sign
      rw [changeBy?, number?_repr]
      rfl
    rw [toList_text_counted o hn, List.append_assoc, List.append_assoc, List.singleton_append]
    cases o <;>
      exact reads_numbered _ ';' ['\n'] (by decide) (by decide) (by decide) (by decide) (by decide)
        (hc _ _)

theorem reads_line (l : CodeLine) : Reads (l.text.toList ++ ['\n']) [ofLine l] := by
  cases l with
  | print => exact reads_fixed (by decide) (by decide) rfl
  | input => exact reads_fixed (by decide) (by decide) rfl
  | counted o n => exact reads_counted o n
  | blockStart => exact reads_fixed (by decide) (by decide) rfl
  | blockEnd => exact reads_fixed (by decide) (by decide) rfl

theorem reads_indentation (level : Nat) :
    Reads (String.join (List.replicate level indentUnit)).toList [] := by
  induction level with
  | zero => exact reads_blank (lexes_of_scan (by decide))
  | succ level ih =>
    have hunit : Reads indentUnit.toList [] := reads_blank (lexes_of_scan (by decide))
    rw [List.replicate_succ, String.join_cons, String.toList_append]
    exact hunit.append ih

theorem reads_lines (ls : List IndentedLine) :
    Reads (String.join (ls.map IndentedLine.text)).toList (ls.map fun l => ofLine l.line) := by
  induction ls with
  | nil => exact reads_blank (lexes_of_scan (by decide))
  | cons l ls ih =>
    rw [List.map_cons, List.map_cons, String.join_cons, String.toList_append, l.toList_text]
    exact ((reads_indentation l.level).append (reads_line l.line)).append ih

/-! ## Blocks -/

mutual

theorem block?_codeLines_statement (s : Brainfuck.Statement) (level : Nat)
    (outer : List (List Statement)) (block : List Statement) (more : List Clause) :
    block? outer block ((s.codeLines level).map (fun l => ofLine l.line) ++ more) =
      block? outer (ofStatement s :: block) more := by
  cases s with
  | print => rfl
  | input => rfl
  | counted o n => rfl
  | loop body =>
    rw [Statement.codeLines, List.map_cons, List.map_append, List.cons_append, List.append_assoc]
    rw [ofLine, block?, block?_codeLines body]
    simp [ofLine, block?, ofStatement]

/-- The lines of a program add its statements to the open block. -/
theorem block?_codeLines (p : Program) (level : Nat) (outer : List (List Statement))
    (block : List Statement) (more : List Clause) :
    block? outer block ((p.codeLines level).map (fun l => ofLine l.line) ++ more) =
      block? outer ((ofProgram p).reverse ++ block) more := by
  cases p with
  | nil => rfl
  | cons s rest =>
    rw [Program.codeLines, List.map_append, List.append_assoc, block?_codeLines_statement,
      block?_codeLines rest, ofProgram, List.reverse_cons, List.append_assoc, List.singleton_append]

end

/-! ## Whole listings -/

theorem wholeListing_eq (p : Program) (memorySize : Nat) :
    p.wholeListing memorySize =
      "#include <stdio.h>\n\nunsigned char memory[" ++ memorySize.repr ++
        "];\nlong long current = 0;\n\n" ++ "int main(void) \x7b\n" ++
        ((Listing.atLevel 1).load p).text ++ indentUnit ++ "return 0;\n\x7d\n" := by
  unfold Program.wholeListing
  simp only [ToString.toString]

theorem toList_wholeListing (p : Program) (memorySize : Nat) :
    (p.wholeListing memorySize).toList =
      "#include <stdio.h>\n\n".toList ++
        ("unsigned char memory[".toList ++ (memorySize.repr.toList ++ ']' :: [';', '\n']) ++
          ("long long current = 0;\n\n".toList ++ ("int main(void) \x7b\n".toList ++
            (((Listing.atLevel 1).load p).text.toList ++
              ("    return 0;\n".toList ++ "\x7d\n".toList))))) := by
  have hdeclarations : "#include <stdio.h>\n\nunsigned char memory[".toList =
    "#include <stdio.h>\n\n".toList ++ "unsigned char memory[".toList := by decide
  have hcurrent : "];\nlong long current = 0;\n\n".toList =
    ']' :: [';', '\n'] ++ "long long current = 0;\n\n".toList := by decide
  have hend : "return 0;\n\x7d\n".toList = "return 0;\n".toList ++ "\x7d\n".toList := by decide
  have hfinish : "    return 0;\n".toList = indentUnit.toList ++ "return 0;\n".toList := by decide
  rw [wholeListing_eq]
  simp only [String.toList_append, hdeclarations, hcurrent, hend, hfinish, List.append_assoc]

theorem read?_wholeListing (p : Program) (memorySize : Nat) :
    TranslationUnit.read? (p.wholeListing memorySize) =
      some ⟨memorySize, ofProgram p ++ [.finish]⟩ := by
  have hdirective : Reads "#include <stdio.h>\n\n".toList [.directive] :=
    reads_fixed (by decide) (by decide) rfl
  have hmemory : Reads ("unsigned char memory[".toList ++
      (memorySize.repr.toList ++ ']' :: [';', '\n'])) [.memory memorySize] := by
    have hc : (number? memorySize.repr).map Clause.memory = some (.memory memorySize) := by
      rw [number?_repr]
      rfl
    exact reads_numbered _ ']' [';', '\n'] (by decide) (by decide) (by decide) (by decide)
      (by decide) hc
  have hcurrent : Reads "long long current = 0;\n\n".toList [.current] :=
    reads_fixed (by decide) (by decide) rfl
  have hmain : Reads "int main(void) \x7b\n".toList [.main] :=
    reads_fixed (by decide) (by decide) rfl
  have hfinish : Reads "    return 0;\n".toList [.simple .finish] :=
    reads_fixed (by decide) (by decide) rfl
  have hend : Reads "\x7d\n".toList [.blockEnd] := reads_fixed (by decide) (by decide) rfl
  have hbody : Reads ((Listing.atLevel 1).load p).text.toList
      ((p.codeLines 1).map fun l => ofLine l.line) := by
    rw [Listing.text_load]
    exact reads_lines (p.codeLines 1)
  have hall := hdirective.append (hmemory.append (hcurrent.append (hmain.append
    (hbody.append (hfinish.append hend)))))
  rw [← toList_wholeListing] at hall
  have hblock : block? [] [] ((p.codeLines 1).map (fun l => ofLine l.line) ++
      [.simple .finish, .blockEnd]) = some (ofProgram p ++ [.finish]) := by
    rw [block?_codeLines]
    simp [block?]
  unfold TranslationUnit.read?
  rw [hall.clauses?_eq]
  simp [hblock]

end Brainfuck.C
