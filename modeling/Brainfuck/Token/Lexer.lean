import Brainfuck.Event
import Brainfuck.Source

/-!
# Lexing

A lexer pulls characters from a source until it has a symbol or the source ends. Comments are
skipped. The end is a token too, and comes again each time it is asked for.
-/

namespace Brainfuck

open Source

structure Lexer (σ : Type) where
  source : σ
  /-- How often the source has been asked for a character. -/
  pulls : Nat
  log : Array Event
deriving Repr

namespace Lexer

variable {σ : Type}

def ofSource (source : σ) : Lexer σ := ⟨source, 0, #[]⟩

def record (l : Lexer σ) (e : Event) : Lexer σ := { l with log := l.log.push e }

@[simp] theorem source_record (l : Lexer σ) (e : Event) : (l.record e).source = l.source := rfl

variable [Source σ]

/-- Asks the source once. A read failure is recorded. -/
def pull (l : Lexer σ) : Supply × Lexer σ :=
  match supply l.source with
  | (answer, source) =>
    let asked : Lexer σ := { l with source, pulls := l.pulls + 1 }
    match answer with
    | .failed e => (answer, asked.record (.readingFailed (position source) e))
    | .char _ | .ended => (answer, asked)

theorem pull_fst (l : Lexer σ) : l.pull.1 = (supply l.source).1 := by
  simp only [pull]
  split <;> rfl

theorem source_pull (l : Lexer σ) : l.pull.2.source = (supply l.source).2 := by
  simp only [pull]
  split <;> rfl

theorem rest_pull_of_char {l : Lexer σ} {c : Char} (h : l.pull.1.char? = some c) :
    rest l.source = c :: rest l.pull.2.source := by
  rw [source_pull]
  exact rest_of_char (pull_fst l ▸ h)

theorem rest_pull_of_end {l : Lexer σ} (h : l.pull.1.char? = none) :
    rest l.pull.2.source = [] := by
  rw [source_pull]
  exact rest_after_end (pull_fst l ▸ h)

theorem length_rest_pull_lt {l : Lexer σ} {c : Char} (h : l.pull.1.char? = some c) :
    (rest l.pull.2.source).length < (rest l.source).length := by
  simp [rest_pull_of_char h]

theorem position_pull_pos {l : Lexer σ} {c : Char} (h : l.pull.1.char? = some c) :
    0 < position l.pull.2.source := by
  rw [source_pull, position_of_char (pull_fst l ▸ h)]
  exact Nat.succ_pos _

/-- The next symbol, or the end of the source. -/
def next (l : Lexer σ) : Token × Lexer σ :=
  let asked := l.pull
  match h : asked.1.char? with
  | none => (.endOfFile (position asked.2.source), asked.2)
  | some c =>
    match Symbol.ofChar? c with
    | none =>
      have := length_rest_pull_lt h
      next asked.2
    | some s =>
      let token := Token.ofSymbol s (position asked.2.source) (position_pull_pos h)
      (token, asked.2.record (.scannedToken token.kind token.span))
termination_by (rest l.source).length

theorem length_rest_next (l : Lexer σ) :
    (rest l.next.2.source).length + (if l.next.1.isEnd then 0 else 1) ≤ (rest l.source).length := by
  fun_induction next l with
  | case1 l asked h => simp [asked, rest_pull_of_end h]
  | case2 l asked c h hs this ih => exact Nat.le_of_lt (Nat.lt_of_le_of_lt ih this)
  | case3 l asked c h s hs token => simp [rest_pull_of_char h, token, asked]

/-- The symbols up to the end of the source. -/
def collect (l : Lexer σ) : List Token × Lexer σ :=
  match h : l.next with
  | (token, scanned) =>
    if ended : token.isEnd then ([], scanned)
    else
      have : (rest scanned.source).length < (rest l.source).length := by
        have := length_rest_next l
        rwa [h, if_neg ended] at this
      let more := collect scanned
      (token :: more.1, more.2)
termination_by (rest l.source).length

/-! ## One step at a time -/

theorem next_of_end {l : Lexer σ} (h : l.pull.1.char? = none) :
    l.next = (.endOfFile (position l.pull.2.source), l.pull.2) := by
  rw [next]
  split
  · rfl
  · rename_i c hc
    cases h.symm.trans hc

theorem next_of_comment {l : Lexer σ} {c : Char} (h : l.pull.1.char? = some c)
    (hc : Symbol.ofChar? c = none) : l.next = l.pull.2.next := by
  rw [next]
  split
  · rename_i hn
    cases h.symm.trans hn
  · rename_i d hd
    cases h.symm.trans hd
    split
    · rfl
    · rename_i s hs
      cases hc.symm.trans hs

theorem next_of_symbol {l : Lexer σ} {c : Char} {s : Symbol} (h : l.pull.1.char? = some c)
    (hs : Symbol.ofChar? c = some s) :
    l.next = (.ofSymbol s (position l.pull.2.source) (position_pull_pos h),
      l.pull.2.record (.scannedToken (.symbol s)
        (.endingAt (position l.pull.2.source) (position_pull_pos h)))) := by
  rw [next]
  split
  · rename_i hn
    cases h.symm.trans hn
  · rename_i d hd
    cases h.symm.trans hd
    split
    · rename_i hn
      cases hs.symm.trans hn
    · rename_i s' hs'
      cases hs.symm.trans hs'
      rfl

theorem collect_of_end {l : Lexer σ} (h : l.next.1.isEnd = true) :
    l.collect = ([], l.next.2) := by
  rw [collect]
  split
  rename_i token scanned hn
  have hend : token.isEnd = true := by rwa [hn] at h
  rw [dif_pos hend]
  simp only [hn]

theorem collect_of_symbol {l : Lexer σ} (h : l.next.1.isEnd = false) :
    l.collect = (l.next.1 :: l.next.2.collect.1, l.next.2.collect.2) := by
  rw [collect]
  split
  rename_i token scanned hn
  have hend : ¬token.isEnd = true := by rw [hn] at h; simp [h]
  rw [dif_neg hend]
  simp only [hn]

end Lexer

end Brainfuck
