import Brainfuck.Proofs.C.ReadBack

/-!
# Indentation

A listing at a deeper level is the listing moved in. Within a listing each line stands as deep as
there are loops around its statement.
-/

namespace Brainfuck

/-! ## Texts moved in -/

/-- Puts blanks at the start, if a line starts there, and after each line end with text behind it. -/
def moveLines (blanks : Nat) (lineStarts : Bool) : List Char → List Char
  | [] => []
  | c :: text =>
    (if lineStarts then List.replicate blanks ' ' else []) ++ c :: moveLines blanks (c == '\n') text

/-- The text with blanks before each of its lines. -/
def movedIn (blanks : Nat) (text : String) : String :=
  String.ofList (moveLines blanks true text.toList)

variable {blanks k : Nat}

theorem moveLines_rest {line : List Char} (h : '\n' ∉ line) (text : List Char) :
    moveLines blanks false (line ++ '\n' :: text) = line ++ '\n' :: moveLines blanks true text := by
  induction line with
  | nil => rfl
  | cons c line ih =>
    obtain ⟨hc, hline⟩ := not_or.1 (List.mem_cons.not.1 h)
    have hinside : (c == '\n') = false := by simp [Ne.symm hc]
    rw [List.cons_append, moveLines, hinside, ih hline]
    rfl

theorem moveLines_start {text : List Char} (h : text ≠ []) :
    moveLines blanks true text = List.replicate blanks ' ' ++ moveLines blanks false text := by
  cases text with
  | nil => contradiction
  | cons c text => rfl

theorem moveLines_line {line : List Char} (h : '\n' ∉ line) (text : List Char) :
    moveLines blanks true (line ++ '\n' :: text) =
      List.replicate blanks ' ' ++ line ++ '\n' :: moveLines blanks true text := by
  rw [moveLines_start (by simp), moveLines_rest h, List.append_assoc]

example : movedIn 2 "a\n  b\n\nc\n" = "  a\n    b\n  \n  c\n" := by decide

/-! ## Lines of code -/

/-- The line `k` levels further in. -/
def IndentedLine.deeper (k : Nat) (l : IndentedLine) : IndentedLine :=
  { l with level := k + l.level }

theorem newline_not_mem_text (l : CodeLine) : '\n' ∉ l.text.toList := by
  cases l with
  | print => decide
  | input => decide
  | counted o n => exact C.not_mem_text_counted o n (by decide)
  | blockStart => decide
  | blockEnd => decide

theorem IndentedLine.text_eq_blanks (l : IndentedLine) :
    l.text = String.ofList (List.replicate (4 * l.level) ' ') ++ l.line.text ++ "\n" := by
  rw [IndentedLine.text, ← toList_indentation, String.ofList_toList]

theorem IndentedLine.toList_text_blanks (l : IndentedLine) :
    l.text.toList = List.replicate (4 * l.level) ' ' ++ l.line.text.toList ++ ['\n'] := by
  rw [l.toList_text, toList_indentation, List.append_assoc]

theorem moveLines_text (l : IndentedLine) (text : List Char) :
    moveLines (4 * k) true (l.text.toList ++ text) =
      (l.deeper k).text.toList ++ moveLines (4 * k) true text := by
  have hline : '\n' ∉ List.replicate (4 * l.level) ' ' ++ l.line.text.toList := by
    rw [List.mem_append, not_or]
    exact ⟨by simp [List.mem_replicate], newline_not_mem_text l.line⟩
  rw [l.toList_text_blanks, List.append_assoc, List.singleton_append, moveLines_line hline,
    IndentedLine.toList_text_blanks, IndentedLine.deeper, Nat.mul_add,
    ← List.replicate_append_replicate]
  simp only [List.append_assoc, List.cons_append, List.nil_append]

theorem movedIn_lines (lines : List IndentedLine) :
    movedIn (4 * k) (String.join (lines.map IndentedLine.text)) =
      String.join ((lines.map (·.deeper k)).map IndentedLine.text) := by
  rw [movedIn, ← String.ofList_toList (s := String.join ((lines.map _).map _))]
  congr 1
  induction lines with
  | nil => rfl
  | cons l lines ih =>
    simp only [List.map_cons, String.join_cons, String.toList_append]
    rw [moveLines_text, ih]

/-! ## Loops around a statement -/

mutual

/-- The lines of a statement, each at the number of loops around the statement it belongs to. -/
def Statement.linesInLoops : Statement → List IndentedLine
  | .print => [⟨0, .print⟩]
  | .input => [⟨0, .input⟩]
  | .counted o count => [⟨0, .counted o count⟩]
  | .loop body =>
    ⟨0, .blockStart⟩ :: ((Program.linesInLoops body).map (·.deeper 1) ++ [⟨0, .blockEnd⟩])

def Program.linesInLoops : Program → List IndentedLine
  | [] => []
  | s :: rest => s.linesInLoops ++ Program.linesInLoops rest

end

theorem IndentedLine.deeper_deeper (j k : Nat) (l : IndentedLine) :
    (l.deeper j).deeper k = l.deeper (k + j) := by
  simp only [IndentedLine.deeper, Nat.add_assoc]

mutual

theorem Statement.codeLines_eq_deeper (s : Statement) (level : Nat) :
    s.codeLines level = s.linesInLoops.map (·.deeper level) := by
  cases s with
  | print => rfl
  | input => rfl
  | counted o n => rfl
  | loop body =>
    rw [Statement.codeLines, Statement.linesInLoops, Program.codeLines_eq_deeper body (level + 1)]
    simp only [List.map_cons, List.map_append, List.map_nil, List.map_map, Function.comp_def,
      IndentedLine.deeper_deeper]
    rfl

theorem Program.codeLines_eq_deeper (p : Program) (level : Nat) :
    Program.codeLines level p = (Program.linesInLoops p).map (·.deeper level) := by
  cases p with
  | nil => rfl
  | cons s rest =>
    rw [Program.codeLines, Program.linesInLoops, List.map_append,
      Statement.codeLines_eq_deeper s level, Program.codeLines_eq_deeper rest level]

end

/-! ## Listings -/

theorem movedIn_listing (k : Nat) (p : Program) :
    movedIn (4 * k) p.listing = String.join ((Program.codeLines k p).map IndentedLine.text) := by
  rw [Program.listing, Listing.text_atLevel_load, movedIn_lines, p.codeLines_eq_deeper 0,
    p.codeLines_eq_deeper k]
  simp only [List.map_map, Function.comp_def, IndentedLine.deeper_deeper, Nat.add_zero]

/-! ## Writing at one level -/

/-- Code that is written line by line. The level is raised in front of the body of a loop and lowered
behind it. -/
structure CodeWriter where
  level : Nat
  text : String

namespace CodeWriter

def line (w : CodeWriter) (l : CodeLine) : CodeWriter :=
  { w with text := w.text ++ IndentedLine.text ⟨w.level, l⟩ }

def raise (w : CodeWriter) : CodeWriter := { w with level := w.level + 1 }

def lower (w : CodeWriter) : CodeWriter := { w with level := w.level - 1 }

mutual

def statement (w : CodeWriter) : Statement → CodeWriter
  | .print => w.line .print
  | .input => w.line .input
  | .counted o count => w.line (.counted o count)
  | .loop body => ((block (w.line .blockStart).raise body).lower).line .blockEnd

def block (w : CodeWriter) : Program → CodeWriter
  | [] => w
  | s :: rest => block (w.statement s) rest

end

mutual

theorem statement_eq (s : Statement) (w : CodeWriter) :
    w.statement s =
      ⟨w.level, w.text ++ String.join ((s.codeLines w.level).map IndentedLine.text)⟩ := by
  cases s with
  | print => simp [statement, line, Statement.codeLines]
  | input => simp [statement, line, Statement.codeLines]
  | counted o n => simp [statement, line, Statement.codeLines]
  | loop body =>
    rw [statement, block_eq body]
    simp [line, raise, lower, Statement.codeLines, String.append_assoc]

/-- The level is the same again behind a block. -/
theorem block_eq (p : Program) (w : CodeWriter) :
    w.block p =
      ⟨w.level, w.text ++ String.join ((Program.codeLines w.level p).map IndentedLine.text)⟩ := by
  cases p with
  | nil => simp [block, Program.codeLines]
  | cons s rest =>
    rw [block, block_eq rest, statement_eq s]
    simp [Program.codeLines, String.append_assoc]

end

theorem foldl_block (programs : List Program) (w : CodeWriter) :
    programs.foldl block w = ⟨w.level, w.text ++
      String.join ((programs.flatMap (Program.codeLines w.level)).map IndentedLine.text)⟩ := by
  induction programs generalizing w with
  | nil => simp
  | cons p programs ih =>
    rw [List.foldl_cons, ih, block_eq]
    simp [String.append_assoc]

end CodeWriter

/-! ## One program after another -/

theorem join_movedIn (k : Nat) (programs : List Program) :
    String.join (programs.map fun p => movedIn (4 * k) p.listing) =
      String.join ((programs.flatMap (Program.codeLines k)).map IndentedLine.text) := by
  induction programs with
  | nil => rfl
  | cons p programs ih =>
    rw [List.map_cons, String.join_cons, ih, movedIn_listing, List.flatMap_cons, List.map_append,
      String.join_append]

theorem flatMap_codeLines (k : Nat) (programs : List Program) :
    programs.flatMap (Program.codeLines k) =
      (programs.flatMap Program.linesInLoops).map (·.deeper k) := by
  rw [List.map_flatMap]
  exact List.flatMap_congr fun p _ => p.codeLines_eq_deeper k

/-- A program loaded at level `k` is moved in by `4 * k` blanks. -/
theorem indentation_is_uniform_and_loads_append (k : Nat) (programs : List Program) :
    let code := programs.foldl Listing.load (.atLevel k)
    code.text = String.join (programs.map fun p => movedIn (4 * k) p.listing) ∧
    code.text = String.join ((programs.flatMap Program.linesInLoops).map fun l =>
      String.ofList (List.replicate (4 * (k + l.level)) ' ') ++ l.line.text ++ "\n") ∧
    code.level = k ∧ programs.foldl CodeWriter.block ⟨k, ""⟩ = ⟨k, code.text⟩ ∧
    ∀ (p : Program) (memorySize : Nat),
      p.wholeListing memorySize = "#include <stdio.h>\n\nunsigned char memory[" ++ memorySize.repr ++
        "];\nlong long current = 0;\n\n" ++ "int main(void) \x7b\n" ++ movedIn 4 p.listing ++
        "    " ++ "return 0;\n\x7d\n" ∧
      ∃ body, C.statements? p.listing = some body ∧
        C.TranslationUnit.read? (p.wholeListing memorySize) =
          some ⟨memorySize, body ++ [.finish]⟩ := by
  intro code
  have hcode : code =
      ⟨k, programs.flatMap (Program.codeLines k)⟩ := Listing.foldl_load programs (.atLevel k)
  have htext : code.text =
      String.join ((programs.flatMap (Program.codeLines k)).map IndentedLine.text) := by
    rw [hcode, Listing.text]
  refine ⟨?_, ?_, ?_, ?_, fun p memorySize => ⟨?_, ?_⟩⟩
  · rw [htext, join_movedIn]
  · rw [htext, flatMap_codeLines, List.map_map]
    congr 2
    funext l
    exact (l.deeper k).text_eq_blanks
  · rw [hcode]
  · rw [htext, CodeWriter.foldl_block, String.empty_append]
  · have hbody : movedIn 4 p.listing = ((Listing.atLevel 1).load p).text := by
      rw [Listing.text_atLevel_load]
      exact movedIn_listing 1 p
    rw [C.wholeListing_eq, hbody, indentUnit]
  · exact ⟨C.ofProgram p, C.statements?_listing p, C.read?_wholeListing p memorySize⟩

end Brainfuck
