import Brainfuck.Proofs.C.Syntax
import Mathlib.Data.Nat.Digits.Defs

/-!
# Reading piece by piece

A text is read piece by piece when each piece ends where a lexeme, or a clause, is complete.
-/

namespace Brainfuck.C

/-! ## Scanning -/

namespace Scanner

theorem scan_append (s : Scanner) (text more : List Char) :
    scan s (text ++ more) = scan (scan s text) more := by
  unfold scan
  rw [List.foldl_append]

theorem scan_cons (s : Scanner) (c : Char) (text : List Char) :
    scan s (c :: text) = scan (s.step c) text := rfl

theorem begun_flush (s : Scanner) : s.flush.begun = [] := by
  unfold flush
  split
  · simpa using ‹s.begun.isEmpty = true›
  · rfl

theorem flush_flush (s : Scanner) : s.flush.flush = s.flush := by
  have hbegun : s.flush.begun.isEmpty := by rw [begun_flush]; rfl
  rw [flush.eq_def s.flush, if_pos hbegun]

theorem step_of_not_continues {s : Scanner} {c : Char} (h : continues s.begun c = false) :
    s.step c = s.flush.step c := by
  have hnot : continues s.flush.begun c = false := by rw [begun_flush, continues]
  unfold step
  rw [h, hnot, flush_flush]
  rfl

def after (done : List String) (s : Scanner) : Scanner := ⟨s.lexemes ++ done, s.begun⟩

theorem flush_after (done : List String) (s : Scanner) :
    (s.after done).flush = s.flush.after done := by
  unfold flush after
  split <;> rfl

theorem step_after (done : List String) (s : Scanner) (c : Char) :
    (s.after done).step c = (s.step c).after done := by
  unfold step
  rw [flush_after]
  by_cases hc : continues s.begun c
  · simp only [after, hc, if_true]
  · simp only [after, hc, if_false, Bool.false_eq_true]
    split
    · rfl
    · split <;> rfl

theorem scan_after (done : List String) (s : Scanner) (text : List Char) :
    (s.after done).scan text = (s.scan text).after done := by
  induction text generalizing s with
  | nil => rfl
  | cons c text ih =>
    rw [scan_cons, scan_cons, step_after, ih]

end Scanner

open Scanner

/-- The text is made of these lexemes, and the last one is complete. -/
def Lexes (text : List Char) (ls : List String) : Prop :=
  ∀ done, scan ⟨done, []⟩ text = ⟨ls.reverse ++ done, []⟩

variable {text more : List Char} {ls : List String}

theorem lexes_of_scan (h : (scan ⟨[], []⟩ text).begun = []) : Lexes text (lexemes text) := by
  intro done
  have hflush : (scan ⟨[], []⟩ text).flush = scan ⟨[], []⟩ text := by
    rw [flush, h]
    rfl
  have hdone : scan ⟨done, []⟩ text = (scan ⟨[], []⟩ text).after done :=
    scan_after done ⟨[], []⟩ text
  rw [hdone, after, h, lexemes, hflush, List.reverse_reverse]

theorem Lexes.append {ls' : List String} (h : Lexes text ls) (h' : Lexes more ls') :
    Lexes (text ++ more) (ls ++ ls') := by
  intro done
  rw [scan_append, h, h', List.reverse_append, List.append_assoc]

theorem Lexes.lexemes_eq (h : Lexes text ls) : lexemes text = ls := by
  unfold lexemes
  rw [h []]
  simp [flush]

/-! ## Numbers -/

theorem isDigit_of_mem_repr {n : Nat} {c : Char} (h : c ∈ n.repr.toList) : c.isDigit := by
  rw [Nat.toList_repr] at h
  exact Nat.isDigit_of_mem_toDigits (by omega) (by omega) h

theorem isWordChar_of_isDigit {c : Char} (h : c.isDigit) : isWordChar c := by
  simp [isWordChar, Char.isAlphanum, h]

theorem continues_word {b c : Char} {before : List Char} (hb : ∀ d ∈ b :: before, isWordChar d) :
    continues (b :: before) c = isWordChar c := by
  have hdirective : (b :: before).getLast? ≠ some '#' := by
    intro h
    have := hb '#' (List.mem_of_getLast? h)
    contradiction
  have hword := hb b List.mem_cons_self
  simp only [continues, if_neg hdirective, hword, if_true]

theorem scan_word (done : List String) {b : Char} {before : List Char}
    (hb : ∀ d ∈ b :: before, isWordChar d) (htext : ∀ d ∈ text, isWordChar d) :
    scan ⟨done, b :: before⟩ text = ⟨done, text.reverse ++ b :: before⟩ := by
  induction text generalizing b before with
  | nil => rfl
  | cons c text ih =>
    have hc := htext c List.mem_cons_self
    have hstep : step ⟨done, b :: before⟩ c = ⟨done, c :: b :: before⟩ := by
      unfold step
      rw [if_pos ((continues_word hb).trans hc)]
    have hgo : ∀ d ∈ c :: b :: before, isWordChar d := by
      intro d hd
      rcases List.mem_cons.1 hd with rfl | hd
      · exact hc
      · exact hb d hd
    rw [scan_cons, hstep, ih hgo fun d hd => htext d (List.mem_cons_of_mem c hd)]
    simp

theorem not_isWhitespace_of_isWordChar {c : Char} (h : isWordChar c) : c.isWhitespace = false := by
  cases hblank : c.isWhitespace with
  | false => rfl
  | true =>
    simp only [Char.isWhitespace, Bool.or_eq_true, decide_eq_true_eq] at hblank
    rcases hblank with ((rfl | rfl) | rfl) | rfl <;> contradiction

theorem not_separator_of_isWordChar {c : Char} (h : isWordChar c) :
    separators.contains c = false := by
  cases hc : separators.contains c with
  | false => rfl
  | true =>
    simp only [separators, List.contains_iff_mem, List.mem_cons, List.not_mem_nil, or_false] at hc
    rcases hc with rfl | rfl | rfl | rfl | rfl | rfl | rfl <;> contradiction

/-- A word ends at a character that is of no word. -/
theorem scan_word_cons (done : List String) {w : String} (hw : ∀ d ∈ w.toList, isWordChar d)
    (hne : w.toList ≠ []) {c : Char} (hc : isWordChar c = false) :
    scan ⟨done, []⟩ (w.toList ++ c :: text) = scan ⟨w :: done, []⟩ (c :: text) := by
  obtain ⟨b, rest, hrest⟩ := List.exists_cons_of_ne_nil hne
  rw [hrest] at hw
  obtain ⟨hb, hmore⟩ := List.forall_mem_cons.1 hw
  -- The first character begins the word, the others continue it, and `c` does not.
  have hfirst : step ⟨done, []⟩ b = ⟨done, [b]⟩ := by
    unfold step
    rw [if_neg (by simp [continues]), not_isWhitespace_of_isWordChar hb,
      not_separator_of_isWordChar hb]
    rfl
  have hword : scan ⟨done, []⟩ w.toList = ⟨done, w.toList.reverse⟩ := by
    rw [hrest, scan_cons, hfirst, scan_word done (by simpa using hb) hmore, List.reverse_cons]
  have hstop : step ⟨done, w.toList.reverse⟩ c = step ⟨w :: done, []⟩ c := by
    obtain ⟨l, before, hl⟩ := List.exists_cons_of_ne_nil (List.reverse_ne_nil_iff.2 hne)
    have hlast : ∀ d ∈ l :: before, isWordChar d := by
      rw [← hl, hrest]
      intro d hd
      exact hw d (List.mem_reverse.1 hd)
    have hflush : flush ⟨done, w.toList.reverse⟩ = ⟨w :: done, []⟩ := by
      unfold flush
      rw [hl, if_neg (by simp), ← hl, List.reverse_reverse, String.ofList_toList]
    have hnot : continues w.toList.reverse c = false := by
      rw [hl, continues_word hlast, hc]
    rw [step_of_not_continues hnot, hflush]
  rw [scan_append, hword, scan_cons, scan_cons, hstop]

theorem lexes_number (n : Nat) {c : Char} (hc : isWordChar c = false) (h : Lexes (c :: text) ls) :
    Lexes (n.repr.toList ++ c :: text) (n.repr :: ls) := by
  intro done
  have hw : ∀ d ∈ n.repr.toList, isWordChar d :=
    fun d hd => isWordChar_of_isDigit (isDigit_of_mem_repr hd)
  have hne : n.repr.toList ≠ [] := by
    rw [Nat.toList_repr]
    exact Nat.toDigits_ne_nil
  rw [scan_word_cons done hw hne hc, h]
  simp

theorem number?_repr (n : Nat) : number? n.repr = some n := by
  unfold number?
  rw [Nat.toList_repr, Nat.ofDigitChars_ten_toDigits, if_pos rfl]

theorem closes_repr (n : Nat) : closes n.repr = false := by
  unfold closes
  cases hdigits : n.repr.toList with
  | nil => rfl
  | cons c rest =>
    have hc : c.isDigit := isDigit_of_mem_repr (n := n) (by rw [hdigits]; exact List.mem_cons_self)
    simp only [List.any_eq_false, List.head?_cons, Option.some.injEq, decide_eq_true_eq]
    rintro d hd rfl
    simp only [List.mem_cons, List.not_mem_nil, or_false] at hd
    rcases hd with rfl | rfl | rfl | rfl <;> contradiction

/-! ## Clauses -/

/-- The last lexeme closes the clause, and no other does. -/
def isClause : List String → Bool
  | [] => false
  | l :: rest => if closes l then rest.isEmpty else isClause rest

theorem isClause_append {before : List String} (h : ∀ l ∈ before, closes l = false)
    (rest : List String) : isClause (before ++ rest) = isClause rest := by
  induction before with
  | nil => rfl
  | cons l before ih =>
    obtain ⟨hl, hmore⟩ := List.forall_mem_cons.1 h
    rw [List.cons_append, isClause, hl, if_neg (by decide), ih hmore]

theorem cut_append (h : isClause ls) (begun rest : List String) :
    cut begun (ls ++ rest) = (begun.reverse ++ ls) :: cut [] rest := by
  induction ls generalizing begun with
  | nil => contradiction
  | cons l ls ih =>
    rw [isClause] at h
    rw [List.cons_append, cut]
    split
    · rw [if_pos ‹_›] at h
      obtain rfl := List.isEmpty_iff.1 h
      simp
    · rw [if_neg ‹_›] at h
      rw [ih h]
      simp

theorem cut_flatten {lss : List (List String)} (h : ∀ ls ∈ lss, isClause ls) :
    cut [] lss.flatten = lss := by
  induction lss with
  | nil => rfl
  | cons ls lss ih =>
    obtain ⟨hls, hmore⟩ := List.forall_mem_cons.1 h
    rw [List.flatten_cons, cut_append hls, ih hmore]
    rfl

/-- The text is made of these clauses, and the last one is complete. -/
def Reads (text : List Char) (cs : List Clause) : Prop :=
  ∃ lss : List (List String), Lexes text lss.flatten ∧ (∀ ls ∈ lss, isClause ls) ∧
    lss.mapM clause? = some cs

theorem reads_blank (h : Lexes text []) : Reads text [] := ⟨[], h, by simp, rfl⟩

theorem reads_one {c : Clause} (h : Lexes text ls) (hone : isClause ls) (hc : clause? ls = some c) :
    Reads text [c] :=
  ⟨[ls], by simpa using h, by simpa using hone, by simp [hc]⟩

theorem Reads.append {cs cs' : List Clause} (h : Reads text cs) (h' : Reads more cs') :
    Reads (text ++ more) (cs ++ cs') := by
  obtain ⟨lss, hlexes, hone, hcs⟩ := h
  obtain ⟨lss', hlexes', hone', hcs'⟩ := h'
  refine ⟨lss ++ lss', ?_, ?_, ?_⟩
  · rw [List.flatten_append]
    exact hlexes.append hlexes'
  · intro ls hls
    rcases List.mem_append.1 hls with hls | hls
    · exact hone ls hls
    · exact hone' ls hls
  · rw [List.mapM_append, hcs, hcs']
    rfl

theorem Reads.clauses?_eq {cs : List Clause} (h : Reads text cs) : clauses? text = some cs := by
  obtain ⟨lss, hlexes, hone, hcs⟩ := h
  unfold clauses?
  rw [hlexes.lexemes_eq, cut_flatten hone, hcs]

end Brainfuck.C
