import Brainfuck.Proofs.Brackets
import Brainfuck.Proofs.C.Listing
import Brainfuck.Proofs.Folding

/-!
# Nesting

The brackets of a text, the loops of the program it parses to and the braces of its C code nest
equally deep.
-/

namespace Brainfuck

/-! ## Depth of a text -/

/-- Nothing is closed that was not opened, nothing stays open, and `depth` is the largest number of
characters `opening` that are open at once. -/
structure NestsTo (opening closing : Char) (text : List Char) (depth : Nat) : Prop where
  closed : excess opening closing text = 0
  within : ∀ pre, pre <+: text →
    0 ≤ excess opening closing pre ∧ excess opening closing pre ≤ depth
  reached : ∃ pre, pre <+: text ∧ excess opening closing pre = depth

/-- A text without these characters. -/
def Plain (opening closing : Char) (text : List Char) : Prop :=
  opening ∉ text ∧ closing ∉ text

instance (opening closing : Char) (text : List Char) : Decidable (Plain opening closing text) :=
  inferInstanceAs (Decidable (_ ∧ _))

variable {opening closing : Char} {text more : List Char} {d d' : Nat}

theorem excess_of_plain (h : Plain opening closing text) : excess opening closing text = 0 := by
  simp [excess, List.count_eq_zero_of_not_mem h.1, List.count_eq_zero_of_not_mem h.2]

theorem Plain.append (h : Plain opening closing text) (h' : Plain opening closing more) :
    Plain opening closing (text ++ more) := by
  simp only [Plain, List.mem_append, not_or]
  exact ⟨⟨h.1, h'.1⟩, h.2, h'.2⟩

theorem Plain.of_prefix {pre : List Char} (h : Plain opening closing text) (hpre : pre <+: text) :
    Plain opening closing pre :=
  ⟨fun hmem => h.1 (hpre.subset hmem), fun hmem => h.2 (hpre.subset hmem)⟩

theorem prefix_or_of_prefix_append {pre : List Char} (h : pre <+: text ++ more) :
    pre <+: text ∨ ∃ q, q <+: more ∧ text ++ q = pre := by
  refine (List.prefix_or_prefix_of_prefix h (List.prefix_append text more)).imp_right ?_
  rintro ⟨q, rfl⟩
  exact ⟨q, (List.prefix_append_right_inj text).1 h, rfl⟩

namespace NestsTo

theorem of_plain (h : Plain opening closing text) : NestsTo opening closing text 0 := by
  refine ⟨excess_of_plain h, fun pre hpre => ?_, [], List.nil_prefix, rfl⟩
  rw [excess_of_plain (h.of_prefix hpre)]
  omega

theorem append (h : NestsTo opening closing text d) (h' : NestsTo opening closing more d') :
    NestsTo opening closing (text ++ more) (max d d') := by
  refine ⟨?_, fun pre hpre => ?_, ?_⟩
  · rw [excess_append, h.closed, h'.closed]
    rfl
  · rcases prefix_or_of_prefix_append hpre with hpre | ⟨q, hq, rfl⟩
    · have := h.within pre hpre
      omega
    · -- A prefix that goes beyond the first text has closed all that it opened there.
      have := h'.within q hq
      rw [excess_append, h.closed]
      omega
  · -- The deeper of the texts reaches the depth of both.
    rcases Nat.le_total d d' with hd | hd
    · obtain ⟨q, hq, hdeep⟩ := h'.reached
      refine ⟨text ++ q, (List.prefix_append_right_inj text).2 hq, ?_⟩
      rw [excess_append, h.closed, hdeep]
      omega
    · obtain ⟨pre, hpre, hdeep⟩ := h.reached
      refine ⟨pre, hpre.trans (List.prefix_append text more), ?_⟩
      omega

/-- What is enclosed nests one deeper. -/
theorem enclosed (hne : opening ≠ closing) (h : NestsTo opening closing text d) :
    NestsTo opening closing (opening :: (text ++ [closing])) (d + 1) := by
  have hend : excess opening closing [closing] = -1 := by
    rw [excess_closing hne]
    rfl
  refine ⟨?_, fun pre hpre => ?_, ?_⟩
  · rw [excess_opening hne, excess_append, h.closed, hend]
    rfl
  · rcases List.prefix_cons_iff.1 hpre with rfl | ⟨inner, rfl, hinner⟩
    · simp [excess]
      omega
    · rw [excess_opening hne]
      -- The prefix is the whole, or it lies inside, one bracket deep.
      rcases List.prefix_concat_iff.1 hinner with rfl | hinner
      · rw [excess_append, h.closed, hend]
        omega
      · have := h.within inner hinner
        omega
  · obtain ⟨pre, hpre, hdeep⟩ := h.reached
    refine ⟨opening :: pre, List.cons_prefix_cons.2 ⟨rfl, hpre.trans (List.prefix_append ..)⟩, ?_⟩
    rw [excess_opening hne, hdeep]
    omega

theorem plain_append (h : Plain opening closing text) (h' : NestsTo opening closing more d) :
    NestsTo opening closing (text ++ more) d := by
  have := (of_plain h).append h'
  rwa [Nat.zero_max] at this

theorem append_plain (h : NestsTo opening closing text d) (h' : Plain opening closing more) :
    NestsTo opening closing (text ++ more) d := by
  have := h.append (of_plain h')
  rwa [Nat.max_zero] at this

end NestsTo

/-! ## The text -/

theorem plain_of_symbols {symbols : List Symbol} (h : text.filterMap Symbol.ofChar? = symbols)
    (hopening : .leftBracket ∉ symbols) (hclosing : .rightBracket ∉ symbols) :
    Plain '[' ']' text := by
  subst h
  refine ⟨fun hmem => hopening ?_, fun hmem => hclosing ?_⟩
  · exact List.mem_filterMap.2 ⟨'[', hmem, by decide⟩
  · exact List.mem_filterMap.2 ⟨']', hmem, by decide⟩

theorem exists_first_symbol {s : Symbol} {symbols : List Symbol}
    (h : text.filterMap Symbol.ofChar? = s :: symbols) :
    ∃ comment rest, text = comment ++ s.toChar :: rest ∧ Plain '[' ']' comment ∧
      rest.filterMap Symbol.ofChar? = symbols := by
  obtain ⟨comment, c, rest, rfl, hcomment, hc, hrest⟩ := List.filterMap_eq_cons_iff.1 h
  obtain rfl : c = s.toChar := Symbol.ofChar?_eq_some_iff.1 hc
  have hnone : comment.filterMap Symbol.ofChar? = [] := List.filterMap_eq_nil_iff.2 hcomment
  exact ⟨comment, rest, rfl, plain_of_symbols hnone List.not_mem_nil List.not_mem_nil, hrest⟩

mutual

theorem Statement.nestsTo_of_symbols (s : Statement) (text : List Char)
    (h : text.filterMap Symbol.ofChar? = s.symbols) : NestsTo '[' ']' text s.depth := by
  cases s with
  | print => exact .of_plain (plain_of_symbols h (by decide) (by decide))
  | input => exact .of_plain (plain_of_symbols h (by decide) (by decide))
  | counted o n =>
    rw [Statement.symbols] at h
    exact .of_plain (plain_of_symbols h (by simp [List.mem_replicate]) (by simp [List.mem_replicate]))
  | loop body =>
    obtain ⟨before, rest, rfl, hbefore, hrest⟩ := exists_first_symbol h
    obtain ⟨inner, tail, rfl, hinner, htail⟩ := List.filterMap_eq_append_iff.1 hrest
    obtain ⟨comment, after, rfl, hcomment, hafter⟩ := exists_first_symbol htail
    -- A comment in front of the closing bracket is text of the body.
    have hbody : NestsTo '[' ']' (inner ++ comment) (Program.depth body) :=
      (Program.nestsTo_of_symbols body inner hinner).append_plain hcomment
    have hafter : Plain '[' ']' after :=
      plain_of_symbols hafter List.not_mem_nil List.not_mem_nil
    have hloop := ((hbody.enclosed (by decide)).append_plain hafter).plain_append hbefore
    simpa [Symbol.toChar, Statement.depth] using hloop

theorem Program.nestsTo_of_symbols (p : Program) (text : List Char)
    (h : text.filterMap Symbol.ofChar? = Program.symbols p) : NestsTo '[' ']' text (Program.depth p) := by
  cases p with
  | nil => exact .of_plain (plain_of_symbols h List.not_mem_nil List.not_mem_nil)
  | cons s rest =>
    obtain ⟨first, others, rfl, hfirst, hothers⟩ := List.filterMap_eq_append_iff.1 h
    exact (Statement.nestsTo_of_symbols s first hfirst).append
      (Program.nestsTo_of_symbols rest others hothers)

end

/-! ## The listing -/

theorem plain_indentation (level : Nat) :
    Plain '{' '}' (String.join (List.replicate level indentUnit)).toList := by
  rw [toList_indentation]
  exact ⟨by simp [List.mem_replicate], by simp [List.mem_replicate]⟩

theorem plain_repr (n : Nat) : Plain '{' '}' n.repr.toList := by
  refine ⟨fun hmem => ?_, fun hmem => ?_⟩
  · exact absurd (C.isDigit_of_mem_repr hmem) (by decide)
  · exact absurd (C.isDigit_of_mem_repr hmem) (by decide)

theorem plain_counted (o : Operator) (n : Nat) :
    Plain '{' '}' (CodeLine.counted o n).text.toList :=
  ⟨C.not_mem_text_counted o n (by decide), C.not_mem_text_counted o n (by decide)⟩

theorem nestsTo_line {l : CodeLine} (h : Plain '{' '}' l.text.toList) (level : Nat) :
    NestsTo '{' '}' (String.join ([⟨level, l⟩].map IndentedLine.text)).toList 0 := by
  rw [List.map_singleton, String.join_cons, String.join_nil, String.append_empty,
    IndentedLine.toList_text]
  exact .of_plain ((plain_indentation level).append (h.append (by decide)))

theorem toList_blockStart (level : Nat) :
    (IndentedLine.text ⟨level, .blockStart⟩).toList =
      (String.join (List.replicate level indentUnit)).toList ++
        "while (memory[current] != 0) ".toList ++ '{' :: ['\n'] := by
  have htext : CodeLine.blockStart.text.toList ++ ['\n'] =
      "while (memory[current] != 0) ".toList ++ '{' :: ['\n'] := by decide
  rw [IndentedLine.toList_text, List.append_assoc, htext]

theorem toList_blockEnd (level : Nat) :
    (IndentedLine.text ⟨level, .blockEnd⟩).toList =
      (String.join (List.replicate level indentUnit)).toList ++ '}' :: ['\n'] := by
  have htext : CodeLine.blockEnd.text.toList ++ ['\n'] = '}' :: ['\n'] := by decide
  rw [IndentedLine.toList_text, htext]

mutual

theorem Statement.nestsTo_codeLines (s : Statement) (level : Nat) :
    NestsTo '{' '}' (String.join ((s.codeLines level).map IndentedLine.text)).toList s.depth := by
  cases s with
  | print => exact nestsTo_line (by decide) level
  | input => exact nestsTo_line (by decide) level
  | counted o n => exact nestsTo_line (plain_counted o n) level
  | loop body =>
    have hindent := plain_indentation level
    have hbody := Program.nestsTo_codeLines body (level + 1)
    have hnewline : Plain '{' '}' ['\n'] := by decide
    have hhead : Plain '{' '}' "while (memory[current] != 0) ".toList := by decide
    -- The indentation of the last line comes before its brace and so belongs inside.
    have hinner := (NestsTo.plain_append hnewline hbody).append_plain hindent
    have hloop := ((hinner.enclosed (by decide)).append_plain hnewline).plain_append
      (hindent.append hhead)
    simpa [Statement.codeLines, Statement.depth, toList_blockStart, toList_blockEnd] using hloop

theorem Program.nestsTo_codeLines (p : Program) (level : Nat) :
    NestsTo '{' '}' (String.join ((Program.codeLines level p).map IndentedLine.text)).toList
      (Program.depth p) := by
  cases p with
  | nil =>
    rw [Program.codeLines, List.map_nil, String.join_nil]
    exact .of_plain (by decide)
  | cons s rest =>
    rw [Program.codeLines, List.map_append, String.join_append, String.toList_append]
    exact (Statement.nestsTo_codeLines s level).append (Program.nestsTo_codeLines rest level)

end

theorem Listing.nestsTo_text (level : Nat) (p : Program) :
    NestsTo '{' '}' ((Listing.atLevel level).load p).text.toList (Program.depth p) := by
  rw [Listing.text_atLevel_load]
  exact Program.nestsTo_codeLines p level

theorem Program.nestsTo_wholeListing (p : Program) (memorySize : Nat) :
    NestsTo '{' '}' (Program.wholeListing p memorySize).toList (Program.depth p + 1) := by
  have hprelude : Plain '{' '}' ("#include <stdio.h>\n\n".toList ++
      ("unsigned char memory[".toList ++ (memorySize.repr.toList ++ ']' :: [';', '\n'])) ++
        ("long long current = 0;\n\n".toList ++ "int main(void) ".toList)) := by
    have hsize : Plain '{' '}' (memorySize.repr.toList ++ ']' :: [';', '\n']) :=
      (plain_repr memorySize).append (by decide)
    exact (Plain.append (by decide) (Plain.append (by decide) hsize)).append (by decide)
  have hnewline : Plain '{' '}' ['\n'] := by decide
  have hreturn : Plain '{' '}' "    return 0;\n".toList := by decide
  have hbody := (NestsTo.plain_append hnewline (Listing.nestsTo_text 1 p)).append_plain hreturn
  have hmain : "int main(void) \x7b\n".toList = "int main(void) ".toList ++ ['{', '\n'] := by decide
  have hend : "\x7d\n".toList = ['}', '\n'] := by decide
  have hwhole := ((hbody.enclosed (by decide)).append_plain hnewline).plain_append hprelude
  rw [C.toList_wholeListing, hmain, hend]
  simpa only [List.append_assoc, List.cons_append, List.nil_append] using hwhole

/-! ## All stages -/

/-- A program nests as deep as its text and its C code. -/
theorem nesting_survives_every_stage :
    (∀ (text : String) (p : Program), parse text = .ok p →
      NestsTo '[' ']' text.toList p.depth) ∧
    ∀ p : Program, NestsTo '{' '}' p.listing.toList p.depth ∧
      ∀ memorySize, NestsTo '{' '}' (p.wholeListing memorySize).toList (p.depth + 1) := by
  refine ⟨fun text p h => ?_, fun p => ⟨Listing.nestsTo_text 0 p, p.nestsTo_wholeListing⟩⟩
  obtain ⟨hsymbols, -⟩ := (parse_eq_ok_iff_symbols text p).1 h
  exact p.nestsTo_of_symbols text.toList hsymbols.symm

theorem nesting_survives_every_stage_with_comments :
    let text := "+[x[.]y[[-]]]"
    let p : Program :=
      [.counted .increment 1, .loop [.loop [.print], .loop [.loop [.counted .decrement 1]]]]
    parse text = .ok p ∧ NestsTo '[' ']' text.toList 3 ∧ NestsTo '{' '}' p.listing.toList 3 ∧
      NestsTo '{' '}' (p.wholeListing 30000).toList 4 := by
  intro text p
  have hparse : parse text = .ok p := by
    rw [parse_eq_ok_iff_symbols]
    exact ⟨by decide, by simp [p, Program.Folded, Statement.Folded, Statement.Apart]⟩
  obtain ⟨htext, hcode⟩ := nesting_survives_every_stage
  exact ⟨hparse, htext text p hparse, (hcode p).1, (hcode p).2 30000⟩

end Brainfuck
