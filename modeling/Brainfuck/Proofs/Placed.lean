import Brainfuck.Token.Stream

/-!
# Symbols in place

What a lexer and a token stream have still to show: the symbols of the text that is left, each at
its offset, and after them the end of the source.
-/

namespace Brainfuck

open Source

structure Placed where
  symbol : Symbol
  offset : Nat
deriving DecidableEq, Repr

namespace Placed

def span (p : Placed) : Span := ⟨p.offset, p.offset + 1⟩

def token (p : Placed) : Token := ⟨p.span, .symbol p.symbol, p.symbol.toChar⟩

@[simp] theorem kind_token (p : Placed) : p.token.kind = .symbol p.symbol := rfl

@[simp] theorem isEnd_token (p : Placed) : p.token.isEnd = false := by
  simp [Token.isEnd]

theorem ofSymbol_eq_token (s : Symbol) {n k : Nat} (h : 0 < n) (hk : n = k + 1) :
    Token.ofSymbol s n h = token ⟨s, k⟩ := by
  subst hk
  rfl

/-- The symbols of a text whose first character stands at `offset`. -/
def scan (offset : Nat) : List Char → List Placed
  | [] => []
  | c :: text =>
    match Symbol.ofChar? c with
    | some s => ⟨s, offset⟩ :: scan (offset + 1) text
    | none => scan (offset + 1) text

theorem scan_cons_of_symbol {c : Char} {s : Symbol} (h : Symbol.ofChar? c = some s)
    (offset : Nat) (text : List Char) :
    scan offset (c :: text) = ⟨s, offset⟩ :: scan (offset + 1) text := by
  simp [scan, h]

theorem scan_cons_of_comment {c : Char} (h : Symbol.ofChar? c = none)
    (offset : Nat) (text : List Char) : scan offset (c :: text) = scan (offset + 1) text := by
  simp [scan, h]

theorem scan_append (offset : Nat) (text more : List Char) :
    scan offset (text ++ more) = scan offset text ++ scan (offset + text.length) more := by
  induction text generalizing offset with
  | nil => simp [scan]
  | cons c text ih =>
    have hn : offset + (c :: text).length = offset + 1 + text.length := by simp; omega
    rw [hn, List.cons_append]
    cases h : Symbol.ofChar? c with
    | some s => rw [scan_cons_of_symbol h, scan_cons_of_symbol h, ih, List.cons_append]
    | none => rw [scan_cons_of_comment h, scan_cons_of_comment h, ih]

theorem map_symbol_scan (offset : Nat) (text : List Char) :
    (scan offset text).map symbol = text.filterMap Symbol.ofChar? := by
  induction text generalizing offset with
  | nil => rfl
  | cons c text ih =>
    cases h : Symbol.ofChar? c with
    | some s => rw [scan_cons_of_symbol h, List.map_cons, ih, List.filterMap_cons_some h]
    | none => rw [scan_cons_of_comment h, ih, List.filterMap_cons_none h]

/-- The token that comes next: the first symbol, or the end of a source of `finish` characters. -/
def shown (finish : Nat) : List Placed → Token
  | [] => .endOfFile finish
  | p :: _ => p.token

end Placed

/-! ## Lexers -/

namespace Lexer

variable {σ : Type} [Source σ]

/-- The symbols not scanned yet. -/
def pending (l : Lexer σ) : List Placed := Placed.scan (position l.source) (rest l.source)

def finish (l : Lexer σ) : Nat := position l.source + (rest l.source).length

theorem position_le_finish (l : Lexer σ) : position l.source ≤ l.finish := Nat.le_add_right _ _

theorem position_pull_of_char {l : Lexer σ} {c : Char} (h : l.pull.1.char? = some c) :
    position l.pull.2.source = position l.source + 1 := by
  rw [source_pull, position_of_char (pull_fst l ▸ h)]

theorem position_pull_of_end {l : Lexer σ} (h : l.pull.1.char? = none) :
    position l.pull.2.source = position l.source := by
  rw [source_pull, position_of_end (pull_fst l ▸ h)]

theorem rest_of_pull_of_end {l : Lexer σ} (h : l.pull.1.char? = none) : rest l.source = [] :=
  rest_of_end (pull_fst l ▸ h)

theorem finish_pull (l : Lexer σ) : l.pull.2.finish = l.finish := by
  unfold finish
  cases h : l.pull.1.char? with
  | none => rw [position_pull_of_end h, rest_pull_of_end h, rest_of_pull_of_end h]
  | some c =>
    rw [position_pull_of_char h, rest_pull_of_char h, List.length_cons]
    omega

theorem pending_of_char {l : Lexer σ} {c : Char} (h : l.pull.1.char? = some c) :
    l.pending = Placed.scan (position l.source) (c :: rest l.pull.2.source) := by
  rw [pending, rest_pull_of_char h]

theorem pending_of_end {l : Lexer σ} (h : l.pull.1.char? = none) : l.pending = [] := by
  rw [pending, rest_of_pull_of_end h, Placed.scan]

theorem pending_pull_of_end {l : Lexer σ} (h : l.pull.1.char? = none) :
    l.pull.2.pending = [] := by
  rw [pending, rest_pull_of_end h, Placed.scan]

theorem pending_pull_of_comment {l : Lexer σ} {c : Char} (h : l.pull.1.char? = some c)
    (hc : Symbol.ofChar? c = none) : l.pull.2.pending = l.pending := by
  rw [pending_of_char h, Placed.scan_cons_of_comment hc, pending, position_pull_of_char h]

theorem pending_of_symbol {l : Lexer σ} {c : Char} {s : Symbol} (h : l.pull.1.char? = some c)
    (hs : Symbol.ofChar? c = some s) :
    l.pending = ⟨s, position l.source⟩ :: l.pull.2.pending := by
  rw [pending_of_char h, Placed.scan_cons_of_symbol hs, pending, position_pull_of_char h]

@[simp] theorem finish_record (l : Lexer σ) (e : Event) : (l.record e).finish = l.finish := rfl

@[simp] theorem pending_record (l : Lexer σ) (e : Event) : (l.record e).pending = l.pending := rfl

theorem finish_next (l : Lexer σ) : l.next.2.finish = l.finish := by
  fun_induction next l with
  | case1 l asked h => exact finish_pull l
  | case2 l asked c h hs this ih => rw [ih, finish_pull]
  | case3 l asked c h s hs token => rw [finish_record, finish_pull]

theorem next_fst_eq_shown (l : Lexer σ) : l.next.1 = Placed.shown l.finish l.pending := by
  fun_induction next l with
  | case1 l asked h =>
    rw [pending_of_end h, Placed.shown, position_pull_of_end h, finish, rest_of_pull_of_end h]
    rfl
  | case2 l asked c h hs this ih => rw [ih, finish_pull, pending_pull_of_comment h hs]
  | case3 l asked c h s hs token =>
    rw [pending_of_symbol h hs, Placed.shown]
    exact Placed.ofSymbol_eq_token s _ (position_pull_of_char h)

theorem pending_next (l : Lexer σ) : l.next.2.pending = l.pending.tail := by
  fun_induction next l with
  | case1 l asked h => rw [pending_pull_of_end h, pending_of_end h, List.tail_nil]
  | case2 l asked c h hs this ih => rw [ih, pending_pull_of_comment h hs]
  | case3 l asked c h s hs token => rw [pending_record, pending_of_symbol h hs, List.tail_cons]

/-! ### The spans in the log -/

/-- Every token scanned so far has the span of one character that has been supplied. -/
def InOrder (l : Lexer σ) : Prop :=
  ∀ kind span, Event.scannedToken kind span ∈ l.log →
    span.start + 1 = span.stop ∧ span.stop ≤ position l.source

theorem InOrder.record {l : Lexer σ} (h : l.InOrder) {e : Event}
    (he : ∀ kind span, e ≠ .scannedToken kind span) : (l.record e).InOrder := by
  intro kind span hm
  rcases Array.mem_push.1 hm with hm | hm
  · exact h kind span hm
  · exact absurd hm.symm (he kind span)

theorem InOrder.recordScanned {l : Lexer σ} (h : l.InOrder) (kind : TokenKind) {span : Span}
    (hw : span.start + 1 = span.stop) (hp : span.stop ≤ position l.source) :
    (l.record (.scannedToken kind span)).InOrder := by
  intro kind' span' hm
  rcases Array.mem_push.1 hm with hm | hm
  · exact h kind' span' hm
  · cases hm
    exact ⟨hw, hp⟩

theorem position_le_pull (l : Lexer σ) : position l.source ≤ position l.pull.2.source := by
  cases h : l.pull.1.char? with
  | none => exact Nat.le_of_eq (position_pull_of_end h).symm
  | some c => exact position_pull_of_char h ▸ Nat.le_succ _

theorem InOrder.pull {l : Lexer σ} (h : l.InOrder) : l.pull.2.InOrder := by
  have hp := position_le_pull l
  rw [source_pull] at hp
  have asked : InOrder { l with source := (supply l.source).2, pulls := l.pulls + 1 } :=
    fun kind span hm => ⟨(h kind span hm).1, Nat.le_trans (h kind span hm).2 hp⟩
  unfold Lexer.pull
  simp only
  split
  · exact asked.record (by simp)
  · exact asked
  · exact asked

theorem InOrder.next {l : Lexer σ} (h : l.InOrder) : l.next.2.InOrder := by
  fun_induction Lexer.next l with
  | case1 l asked hc => exact h.pull
  | case2 l asked c hc hs this ih => exact ih h.pull
  | case3 l asked c hc s hs token =>
    have hp := position_pull_pos hc
    refine InOrder.recordScanned h.pull _ ?_ (Nat.le_refl _)
    simp only [token, Token.ofSymbol, Span.endingAt, asked]
    omega

end Lexer

/-! ## Token streams -/

namespace TokenStream

variable {σ : Type} [Source σ]

/-- The symbols left to take are `ps`, and the source has `finish` characters. A token that was
shown and not yet taken is the first of them. -/
structure Holds (ts : TokenStream σ) (ps : List Placed) (finish : Nat) : Prop where
  finish_eq : ts.lexer.finish = finish
  pending_eq : ts.lexer.pending = if ts.stash.isSome then ps.tail else ps
  stash_eq : ∀ token, ts.stash = some token → token = Placed.shown finish ps
  inOrder : ts.lexer.InOrder

variable {ts : TokenStream σ} {ps : List Placed} {finish : Nat}

theorem Holds.lookahead_fst (h : ts.Holds ps finish) :
    ts.lookahead.1 = Placed.shown finish ps := by
  rcases ts with ⟨lexer, _ | token⟩
  · simp only [lookahead, Lexer.next_fst_eq_shown, h.finish_eq]
    rw [h.pending_eq]
    rfl
  · exact h.stash_eq token rfl

theorem Holds.next_fst (h : ts.Holds ps finish) : ts.next.1 = Placed.shown finish ps := by
  rw [TokenStream.next_fst, h.lookahead_fst]

theorem Holds.lookahead (h : ts.Holds ps finish) : ts.lookahead.2.Holds ps finish := by
  have hfst := h.lookahead_fst
  rcases ts with ⟨lexer, _ | token⟩
  · refine ⟨?_, ?_, ?_, h.inOrder.next⟩
    · simp only [TokenStream.lookahead, Lexer.finish_next, h.finish_eq]
    · simp only [TokenStream.lookahead, Lexer.pending_next, h.pending_eq]
      rfl
    · intro token ht
      rw [← hfst]
      exact (Option.some.inj ht).symm
  · exact h

theorem Holds.next (h : ts.Holds ps finish) : ts.next.2.Holds ps.tail finish := by
  rcases ts with ⟨lexer, _ | token⟩
  · refine ⟨?_, ?_, by simp [TokenStream.next], h.inOrder.next⟩
    · simp only [TokenStream.next, Lexer.finish_next, h.finish_eq]
    · simp only [TokenStream.next, Lexer.pending_next, h.pending_eq]
      rfl
  · exact ⟨h.finish_eq, h.pending_eq, by simp [TokenStream.next], h.inOrder⟩

theorem Holds.record (h : ts.Holds ps finish) {e : Event}
    (he : ∀ kind span, e ≠ .scannedToken kind span) : (ts.record e).Holds ps finish :=
  ⟨h.finish_eq, h.pending_eq, h.stash_eq, h.inOrder.record he⟩

theorem holds_ofSource (source : σ) : (ofSource source).Holds
    (Placed.scan (position source) (rest source)) (position source + (rest source).length) :=
  ⟨rfl, rfl, by simp [ofSource, ofLexer], by simp [Lexer.InOrder, ofSource, ofLexer, Lexer.ofSource]⟩

end TokenStream

end Brainfuck
