import Brainfuck.Proofs.Requests
import Brainfuck.Proofs.Upcoming
import Brainfuck.Source.Text

/-!
# Lazy cursors

A lexer and a token stream over a text are a place in the list of its tokens. They read no further
than the token they show, and the spans that they make are never refused.
-/

namespace Brainfuck

open Source

structure Cursor where
  taken : Nat
  /-- The number of tokens shown so far, whether taken or not. -/
  shown : Nat

namespace Cursor

def start : Cursor := ⟨0, 0⟩

/-- The tokens of a text: its symbols, and then its end for ever. -/
def tokenAt (text : List Char) (k : Nat) : Token :=
  (symbolTokens 0 text).getD k (.endOfFile text.length)

/-- How much of the text `shown` tokens take: up to where the furthest of them stops. -/
def reach (text : List Char) : (shown : Nat) → Nat
  | 0 => 0
  | k + 1 => (tokenAt text k).span.stop

variable (text : List Char) (c : Cursor)

def peek : Cursor := { c with shown := max c.shown (c.taken + 1) }

def take : Cursor := ⟨c.taken + 1, max c.shown (c.taken + 1)⟩

/-- Takes all symbols that are left and the end behind them, which then counts as shown. -/
def takeAll : Cursor := { c with taken := max c.taken (symbolTokens 0 text).length }.take

def look : TokenStream.Look → Answer × Cursor
  | .lookahead => (.token (tokenAt text c.taken), c.peek)
  | .next => (.token (tokenAt text c.taken), c.take)

def scan : Lexer.Request → Answer × Cursor
  | .next => (.token (tokenAt text c.taken), c.take)
  | .collect => (.tokens ((symbolTokens 0 text).drop c.taken), c.takeAll text)

end Cursor

/-! ## The spans in the log -/

/-- The offset before the end of the span can be computed, and the two bound a span. -/
def Event.spanAccepted : Event → Bool
  | scannedToken _ span => 0 < span.stop && (Span.between (span.stop - 1) span.stop matches .ok _)
  | _ => true

def Lexer.spansAccepted {σ : Type} (l : Lexer σ) : Bool := l.log.all Event.spanAccepted

theorem Lexer.InOrder.spansAccepted {σ : Type} [Source σ] {l : Lexer σ} (h : l.InOrder) :
    l.spansAccepted = true := by
  refine Array.all_eq_true_iff_forall_mem.2 fun e he => ?_
  cases e with
  | scannedToken kind span =>
    obtain ⟨hwidth, -⟩ := h kind span he
    have hpos : 0 < span.stop := by omega
    simp [Event.spanAccepted, Span.between_endingAt hpos, hpos]
  | _ => rfl

/-! ## Tokens in place -/

theorem Placed.shown_drop (finish : Nat) (ps : List Placed) (k : Nat) :
    shown finish (ps.drop k) = (ps.map token).getD k (.endOfFile finish) := by
  induction ps generalizing k with
  | nil => simp [shown]
  | cons p ps ih =>
    cases k with
    | zero => rfl
    | succ k => simpa using ih k

theorem Cursor.tokenAt_eq (text : List Char) (k : Nat) :
    tokenAt text k = Placed.shown text.length ((Placed.scan 0 text).drop k) := by
  rw [Placed.shown_drop, tokenAt, symbolTokens_eq]

theorem Cursor.isEnd_tokenAt (text : List Char) (k : Nat) :
    (tokenAt text k).isEnd = true ↔ (symbolTokens 0 text).length ≤ k := by
  rw [tokenAt_eq, symbolTokens_eq, List.length_map, ← List.drop_eq_nil_iff]
  cases (Placed.scan 0 text).drop k <;> simp [Placed.shown]

/-! ## Lexers -/

namespace Lexer

variable {σ : Type} [Source σ] {l : Lexer σ} {text : List Char} {k : Nat}

/-- Nothing is read behind the token that a call gives. -/
theorem position_next (l : Lexer σ) : position l.next.2.source = l.next.1.span.stop := by
  fun_induction next l with
  | case1 l asked h => rfl
  | case2 l asked c h hs this ih => exact ih
  | case3 l asked c h s hs token => rfl

/-- The lexer has gone through the first `k` tokens of the text. -/
structure At (l : Lexer σ) (text : List Char) (k : Nat) : Prop where
  finish_eq : l.finish = text.length
  pending_eq : l.pending = (Placed.scan 0 text).drop k
  position_eq : position l.source = Cursor.reach text k
  inOrder : l.InOrder

theorem At.next_fst (h : l.At text k) : l.next.1 = Cursor.tokenAt text k := by
  rw [next_fst_eq_shown, h.finish_eq, h.pending_eq, Cursor.tokenAt_eq]

theorem At.next (h : l.At text k) : l.next.2.At text (k + 1) where
  finish_eq := by rw [finish_next, h.finish_eq]
  pending_eq := by rw [pending_next, h.pending_eq, List.tail_drop]
  position_eq := by rw [position_next, h.next_fst, Cursor.reach]
  inOrder := h.inOrder.next

theorem At.collect (h : l.At text k) :
    l.collect.1 = (symbolTokens 0 text).drop k ∧
      l.collect.2.At text (max k (symbolTokens 0 text).length + 1) := by
  fun_induction Lexer.collect l generalizing k
  case case1 l token scanned hnext ended =>
    -- No symbol is left from `k` on, and the next token is the end.
    obtain rfl : token = Cursor.tokenAt text k := by rw [← h.next_fst, hnext]
    have hafter := h.next
    rw [hnext] at hafter
    have hk := (Cursor.isEnd_tokenAt text k).1 ended
    rw [List.drop_eq_nil_of_le hk, Nat.max_eq_left hk]
    exact ⟨rfl, hafter⟩
  case case2 l token scanned hnext ended hlt more ih =>
    obtain rfl : token = Cursor.tokenAt text k := by rw [← h.next_fst, hnext]
    have hafter := h.next
    rw [hnext] at hafter
    have hk : k < (symbolTokens 0 text).length := by
      rw [Cursor.isEnd_tokenAt] at ended
      omega
    obtain ⟨hmore, hlast⟩ := ih hafter
    rw [Nat.max_eq_right (by omega)] at hlast ⊢
    refine ⟨?_, hlast⟩
    rw [List.drop_eq_getElem_cons hk, hmore, Cursor.tokenAt, List.getD_eq_getElem?_getD,
      List.getElem?_eq_getElem hk, Option.getD_some]

theorem at_ofText (text : String) : (ofSource (TextSource.ofText text)).At text.toList 0 where
  finish_eq := Nat.zero_add _
  pending_eq := rfl
  position_eq := rfl
  inOrder := by simp [InOrder, ofSource]

def Follows (l : Lexer σ) (text : List Char) (c : Cursor) : Prop :=
  l.At text c.taken ∧ c.shown = c.taken

theorem Follows.answer {c : Cursor} (h : l.Follows text c) (r : Request) :
    (l.answer r).1 = (c.scan text r).1 ∧ (l.answer r).2.Follows text (c.scan text r).2 := by
  obtain ⟨hat, hshown⟩ := h
  cases r with
  | next =>
    refine ⟨congrArg Answer.token hat.next_fst, hat.next, ?_⟩
    simp [Cursor.scan, Cursor.take, hshown]
  | collect =>
    obtain ⟨htokens, hlast⟩ := hat.collect
    refine ⟨congrArg Answer.tokens htokens, hlast, ?_⟩
    simp only [Cursor.scan, Cursor.takeAll, Cursor.take, hshown]
    omega

end Lexer

/-! ## Token streams -/

namespace TokenStream

variable {σ : Type} [Source σ] {ts : TokenStream σ} {text : List Char} {c : Cursor}

/-- The stream holds back the one token that the cursor has shown and not taken, if there is one. -/
structure Follows (ts : TokenStream σ) (text : List Char) (c : Cursor) : Prop where
  lexer : ts.lexer.At text c.shown
  stash : c.shown = c.taken ∧ ts.stash = none ∨
    c.shown = c.taken + 1 ∧ ts.stash = some (Cursor.tokenAt text c.taken)

theorem Follows.answerLook (h : ts.Follows text c) (r : Look) :
    (ts.answerLook r).1 = (c.look text r).1 ∧ (ts.answerLook r).2.Follows text (c.look text r).2 := by
  obtain ⟨lexer, stash⟩ := ts
  obtain ⟨taken, shown⟩ := c
  rcases h with ⟨hat, ⟨hshown, hstash⟩ | ⟨hshown, hstash⟩⟩
  · -- Nothing is held back, so that the lexer goes on by one token.
    simp only at hat hshown hstash
    subst hshown hstash
    have hmax : max shown (shown + 1) = shown + 1 := Nat.max_eq_right (Nat.le_succ shown)
    cases r with
    | lookahead =>
      simp only [TokenStream.answerLook, lookahead, Cursor.look, Cursor.peek, hat.next_fst, hmax]
      exact ⟨trivial, hat.next, .inr ⟨rfl, rfl⟩⟩
    | next =>
      simp only [TokenStream.answerLook, TokenStream.next, Cursor.look, Cursor.take, hat.next_fst,
        hmax]
      exact ⟨trivial, hat.next, .inl ⟨rfl, rfl⟩⟩
  · -- The token held back is given again, and the lexer stays where it is.
    simp only at hat hshown hstash
    subst hshown hstash
    cases r with
    | lookahead =>
      simp only [TokenStream.answerLook, lookahead, Cursor.look, Cursor.peek, Nat.max_self]
      exact ⟨trivial, hat, .inr ⟨rfl, rfl⟩⟩
    | next =>
      simp only [TokenStream.answerLook, TokenStream.next, Cursor.look, Cursor.take, Nat.max_self]
      exact ⟨trivial, hat, .inl ⟨rfl, rfl⟩⟩

end TokenStream

/-! ## Any sequence of calls -/

def Lexer.extent {σ : Type} [Source σ] (l : Lexer σ) : Nat × Bool :=
  (position l.source, l.spansAccepted)

theorem Lexer.At.extent {σ : Type} [Source σ] {l : Lexer σ} {text : List Char} {k : Nat}
    (h : l.At text k) : l.extent = (Cursor.reach text k, true) := by
  rw [Lexer.extent, h.position_eq, h.inOrder.spansAccepted]

/-- A lexer and a token stream answer as a cursor over the tokens. -/
theorem lexing_follows_cursor (text : String) :
    (∀ requests : List Lexer.Request,
      trace Lexer.answer Lexer.extent (.ofSource (TextSource.ofText text)) requests =
        trace (Cursor.scan text.toList) (fun c => (Cursor.reach text.toList c.shown, true))
          .start requests) ∧
    (∀ requests : List TokenStream.Look,
      trace TokenStream.answerLook (fun ts => ts.lexer.extent)
          (.ofSource (TextSource.ofText text)) requests =
        trace (Cursor.look text.toList) (fun c => (Cursor.reach text.toList c.shown, true))
          .start requests) := by
  have hat := Lexer.at_ofText text
  refine ⟨?_, ?_⟩
  · refine trace_eq_trace (R := fun l c => l.Follows text.toList c)
      (fun l c r h => h.answer r) (fun l c h => ?_) ⟨hat, rfl⟩
    rw [h.2]
    exact h.1.extent
  · exact trace_eq_trace (R := fun ts c => ts.Follows text.toList c)
      (fun ts c r h => h.answerLook r) (fun ts c h => h.lexer.extent) ⟨hat, .inl ⟨rfl, rfl⟩⟩

end Brainfuck
