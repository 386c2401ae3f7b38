import Brainfuck.Program.Tree
import Mathlib.Data.List.Basic

/-!
# Programs from their drawings

A drawing is read back into the program that it draws. A line says how deep its statement stands,
and the deeper lines that follow it are those of its body, so nothing else of the edges is needed.
-/

namespace Brainfuck

/-! ## Reading a drawing -/

/-- The same statement with another body, if it is a loop. -/
def Statement.withBody (body : Program) : Statement → Statement
  | .loop _ => .loop body
  | s => s

namespace Drawing

def operator? (name : String) : Option Operator :=
  [.shiftLeft, .shiftRight, .increment, .decrement].find? (·.name = name)

/-- The statement that a label names. The body of a loop is not in its label. -/
def statement? (label : List Char) : Option Statement :=
  match String.ofList (label.takeWhile Char.isAlpha) with
  | "Print" => some .print
  | "Input" => some .input
  | "Loop" => some (.loop [])
  | name => (operator? name).map (.counted · (Nat.ofDigitChars 10 (label.filter Char.isDigit) 0))

/-- Counts the cells before the label of a line. -/
def cutLine : List Char → Nat × List Char
  | '│' :: ' ' :: ' ' :: ' ' :: rest | ' ' :: ' ' :: ' ' :: ' ' :: rest
  | '├' :: '─' :: '─' :: ' ' :: rest | '└' :: '─' :: '─' :: ' ' :: rest =>
    ((cutLine rest).1 + 1, (cutLine rest).2)
  | label => (0, label)

/-- How deep the statement of a line stands, and the statement without its body. -/
def line? (line : List Char) : Option (Nat × Statement) :=
  (statement? (cutLine line).2).map fun s => ((cutLine line).1, s)

/-- The lines of a text. Nothing follows the end of the last one. -/
def lines? (text : List Char) : Option (List (Nat × Statement)) :=
  (text.splitOn '\n').dropLast.mapM line?

/-- Gives each statement the deeper ones that follow it as its body. -/
def nest : List (Nat × Statement) → List (Nat × Statement)
  | [] => []
  | (depth, s) :: rest =>
    (depth, s.withBody (((nest rest).takeWhile (depth < ·.1)).map Prod.snd)) ::
      (nest rest).dropWhile (depth < ·.1)

/-- The program that a text draws. -/
def read? (text : String) : Option Program :=
  let root := "CompilationUnit\n".toList
  if root <+: text.toList then
    (lines? (text.toList.drop root.length)).map fun ls => (nest ls).map Prod.snd
  else none

end Drawing

/-! ## Labels -/

namespace Statement

theorem label_loop (body : Program) : (loop body).label = "Loop" := rfl

theorem toList_label_counted (o : Operator) (n : Nat) :
    (counted o n).label.toList = o.name.toList ++ ' ' :: '(' :: (Nat.toDigits 10 n ++ [')']) := by
  have hlabel : (counted o n).label = o.name ++ " (" ++ n.repr ++ ")" := rfl
  rw [hlabel]
  simp

end Statement

namespace Drawing

theorem isDigit_of_mem_digits {n : Nat} {c : Char} (h : c ∈ Nat.toDigits 10 n) : c.isDigit :=
  Nat.isDigit_of_mem_toDigits (by omega) (by omega) h

theorem statement?_label (s : Statement) : statement? s.label.toList = some (s.withBody []) := by
  cases s with
  | print => rfl
  | input => rfl
  | loop body =>
    rw [Statement.label_loop]
    rfl
  | counted o n =>
    -- The letters in front are the name, and the digits are the count.
    have hname : (o.name.toList ++ ' ' :: '(' :: (Nat.toDigits 10 n ++ [')'])).takeWhile
        Char.isAlpha = o.name.toList := by
      cases o <;> rfl
    have hcount : (o.name.toList ++ ' ' :: '(' :: (Nat.toDigits 10 n ++ [')'])).filter
        Char.isDigit = Nat.toDigits 10 n := by
      have hletters : o.name.toList.filter Char.isDigit = [] := by
        cases o <;> rfl
      have hdigits : (Nat.toDigits 10 n).filter Char.isDigit = Nat.toDigits 10 n :=
        List.filter_eq_self.2 fun c hc => isDigit_of_mem_digits hc
      rw [List.filter_append, hletters, List.nil_append, List.filter_cons_of_neg (by decide),
        List.filter_cons_of_neg (by decide), List.filter_append, hdigits,
        List.filter_cons_of_neg (by decide), List.filter_nil, List.append_nil]
    rw [statement?, Statement.toList_label_counted, hname, hcount, Nat.ofDigitChars_ten_toDigits]
    cases o <;> rfl

theorem cutLine_label (s : Statement) : cutLine s.label.toList = (0, s.label.toList) := by
  cases s with
  | print => rfl
  | input => rfl
  | loop body =>
    rw [Statement.label_loop]
    rfl
  | counted o n =>
    rw [Statement.toList_label_counted]
    cases o <;> rfl

theorem newline_not_mem_label (s : Statement) : '\n' ∉ s.label.toList := by
  cases s with
  | print => decide
  | input => decide
  | loop body =>
    rw [Statement.label_loop]
    decide
  | counted o n =>
    have hname : '\n' ∉ o.name.toList := by
      cases o <;> decide
    have hdigits : '\n' ∉ Nat.toDigits 10 n :=
      fun h => absurd (isDigit_of_mem_digits h) (by decide)
    rw [Statement.toList_label_counted]
    simp [hname, hdigits]

/-! ## Lines -/

theorem cutLine_edges (edges : List Edge) (label : List Char) :
    cutLine (edges.flatMap (·.text.toList) ++ label) =
      (edges.length + (cutLine label).1, (cutLine label).2) := by
  induction edges with
  | nil => simp
  | cons e edges ih =>
    have hcell : ∀ rest, cutLine (e.text.toList ++ rest) =
        ((cutLine rest).1 + 1, (cutLine rest).2) := by
      intro rest
      cases e <;> rfl
    rw [List.flatMap_cons, List.append_assoc, hcell, ih, List.length_cons]
    congr 1
    omega

theorem line?_eq (edges : List Edge) (s : Statement) :
    line? (edges.flatMap (·.text.toList) ++ s.label.toList) =
      some (edges.length, s.withBody []) := by
  rw [line?, cutLine_edges, cutLine_label, statement?_label]
  rfl

theorem newline_not_mem_line (edges : List Edge) (s : Statement) :
    '\n' ∉ edges.flatMap (·.text.toList) ++ s.label.toList := by
  have hedge : ∀ e : Edge, '\n' ∉ e.text.toList := by
    intro e
    cases e <;> decide
  simp [hedge, newline_not_mem_label]

theorem lines?_cons (edges : List Edge) (s : Statement) (more : List Char) :
    lines? ((TreeLine.mk edges s.label).text.toList ++ more) =
      (lines? more).map ((edges.length, s.withBody []) :: ·) := by
  have htext : (TreeLine.mk edges s.label).text.toList ++ more =
      (edges.flatMap (·.text.toList) ++ s.label.toList) ++ '\n' :: more := by
    rw [TreeLine.text]
    simp [List.flatMap_map]
  rw [htext, lines?, List.splitOn_append_cons_self_of_not_mem (newline_not_mem_line edges s),
    List.dropLast_cons_of_ne_nil (List.splitOn_ne_nil _ _), List.mapM_cons, line?_eq, lines?]
  cases (more.splitOn '\n').dropLast.mapM line? <;> rfl

end Drawing

/-! ## Outlines -/

mutual

/-- The statements of the lines, without their bodies, and how deep they stand. -/
def Statement.outline (depth : Nat) : Statement → List (Nat × Statement)
  | .loop body => (depth, .loop []) :: Program.outline (depth + 1) body
  | s => [(depth, s)]

def Program.outline (depth : Nat) : Program → List (Nat × Statement)
  | [] => []
  | s :: rest => s.outline depth ++ Program.outline depth rest

end

namespace Drawing

mutual

theorem lines?_statement (s : Statement) (indent : List Edge) (isLast : Bool) (more : List Char) :
    lines? ((String.join ((s.treeLines indent isLast).map TreeLine.text)).toList ++ more) =
      (lines? more).map (s.outline (indent.length + 1) ++ ·) := by
  cases s with
  | loop body =>
    rw [Statement.treeLines, List.map_cons, String.join_cons, String.toList_append,
      List.append_assoc, lines?_cons, lines?_program body]
    simp [Statement.outline, Statement.withBody, Function.comp_def]
  | print | input | counted =>
    simp [Statement.treeLines, lines?_cons, Statement.outline, Statement.withBody]

theorem lines?_program (p : Program) (indent : List Edge) (more : List Char) :
    lines? ((String.join ((p.treeLines indent).map TreeLine.text)).toList ++ more) =
      (lines? more).map (p.outline (indent.length + 1) ++ ·) := by
  cases p with
  | nil => simp [Program.treeLines, Program.outline]
  | cons s rest =>
    rw [Program.treeLines, List.map_append, String.join_append, String.toList_append,
      List.append_assoc, lines?_statement s, lines?_program rest]
    simp [Program.outline, Function.comp_def]

end

/-- What follows stands no deeper, so that it belongs to no body. -/
def NoDeeper (depth : Nat) (ls : List (Nat × Statement)) : Prop := ∀ x ∈ ls.head?, x.1 ≤ depth

theorem span_deeper {depth : Nat} {ls : List (Nat × Statement)} (h : NoDeeper depth ls)
    (body : Program) :
    (body.map (depth + 1, ·) ++ ls).takeWhile (depth < ·.1) = body.map (depth + 1, ·) ∧
      (body.map (depth + 1, ·) ++ ls).dropWhile (depth < ·.1) = ls := by
  have hbody : ∀ x ∈ body.map (depth + 1, ·), decide (depth < x.1) = true := by
    simp
  rw [List.takeWhile_append_of_pos hbody, List.dropWhile_append_of_pos hbody]
  cases ls with
  | nil => simp
  | cons x ls =>
    have hx : ¬depth < x.1 := Nat.not_lt.2 (h x rfl)
    simp [hx]

theorem nest_leaf {s : Statement} (hs : s.withBody [] = s) {depth : Nat}
    {more : List (Nat × Statement)} (h : NoDeeper depth (nest more)) :
    nest ((depth, s) :: more) = (depth, s) :: nest more := by
  obtain ⟨hbody, hrest⟩ := span_deeper h []
  rw [List.map_nil, List.nil_append] at hbody hrest
  rw [nest, hbody, hrest, List.map_nil, hs]

mutual

/-- A statement takes its own lines and leaves those that follow it. -/
theorem nest_statement (s : Statement) {depth : Nat} {more : List (Nat × Statement)}
    (h : NoDeeper depth (nest more)) :
    nest (s.outline depth ++ more) = (depth, s) :: nest more := by
  cases s with
  | loop body =>
    have hmore : NoDeeper (depth + 1) (nest more) := fun x hx => Nat.le_succ_of_le (h x hx)
    rw [Statement.outline, List.cons_append, nest, nest_program body hmore, (span_deeper h body).1,
      (span_deeper h body).2]
    simp [Statement.withBody, Function.comp_def]
  | print | input | counted => exact nest_leaf rfl h

theorem nest_program (p : Program) {depth : Nat} {more : List (Nat × Statement)}
    (h : NoDeeper depth (nest more)) :
    nest (p.outline depth ++ more) = p.map (depth, ·) ++ nest more := by
  cases p with
  | nil => rfl
  | cons s rest =>
    have hrest : NoDeeper depth (nest (Program.outline depth rest ++ more)) := by
      rw [nest_program rest h]
      cases rest with
      | nil => exact h
      | cons s' rest => simp [NoDeeper]
    rw [Program.outline, List.append_assoc, nest_statement s hrest, nest_program rest h,
      List.map_cons, List.cons_append]

end

theorem read?_tree (p : Program) : read? p.tree = some p := by
  have htext : p.tree.toList = "CompilationUnit\n".toList ++
      (String.join ((p.treeLines []).map TreeLine.text)).toList :=
    String.toList_append
  have hlines := lines?_program p [] []
  have hnest : nest (p.outline 1 ++ []) = p.map (1, ·) ++ nest [] :=
    nest_program p (by simp [NoDeeper, nest])
  rw [List.append_nil, show lines? [] = some [] from rfl] at hlines
  rw [nest, List.append_nil] at hnest
  rw [read?, htext, if_pos (List.prefix_append _ _), List.drop_left, hlines]
  simp [hnest, Function.comp_def]

end Drawing

/-- No two programs are drawn alike. -/
theorem drawings_read_back :
    (∀ p : Program, Drawing.read? p.tree = some p) ∧
      ∀ p q : Program, p.tree = q.tree ↔ p = q := by
  refine ⟨Drawing.read?_tree, fun p q => ⟨fun h => ?_, congrArg Program.tree⟩⟩
  have hread : some p = some q := by
    rw [← Drawing.read?_tree p, h, Drawing.read?_tree]
  exact Option.some.inj hread

end Brainfuck
