import Brainfuck.Token.Lexer

/-!
# Token streams

A stream of tokens that shows its next token before it is taken. At most one token is held back, so
nothing is scanned before it is needed.
-/

namespace Brainfuck

open Source

structure TokenStream (σ : Type) where
  lexer : Lexer σ
  /-- The token that was shown and not yet taken. -/
  stash : Option Token
deriving Repr

namespace TokenStream

variable {σ : Type}

def ofLexer (lexer : Lexer σ) : TokenStream σ := ⟨lexer, none⟩

def ofSource (source : σ) : TokenStream σ := ofLexer (.ofSource source)

def record (ts : TokenStream σ) (e : Event) : TokenStream σ :=
  { ts with lexer := ts.lexer.record e }

variable [Source σ]

/-- Shows the next token, which stays next. -/
def lookahead (ts : TokenStream σ) : Token × TokenStream σ :=
  match ts.stash with
  | some token => (token, ts)
  | none =>
    let scanned := ts.lexer.next
    (scanned.1, ⟨scanned.2, some scanned.1⟩)

/-- Takes the next token. -/
def next (ts : TokenStream σ) : Token × TokenStream σ :=
  match ts.stash with
  | some token => (token, { ts with stash := none })
  | none =>
    let scanned := ts.lexer.next
    (scanned.1, ⟨scanned.2, none⟩)

/-! ## What is left to take -/

/-- A bound on the symbols still to be taken. -/
def size (ts : TokenStream σ) : Nat :=
  (rest ts.lexer.source).length + if ts.stash.any (!·.isEnd) then 1 else 0

@[simp] theorem size_record (ts : TokenStream σ) (e : Event) : (ts.record e).size = ts.size := rfl

@[simp] theorem next_lookahead (ts : TokenStream σ) : ts.lookahead.2.next = ts.next := by
  rcases ts with ⟨lexer, _ | token⟩ <;> simp [lookahead, next]

@[simp] theorem lookahead_lookahead (ts : TokenStream σ) :
    ts.lookahead.2.lookahead = ts.lookahead := by
  rcases ts with ⟨lexer, _ | token⟩ <;> simp [lookahead]

theorem next_fst (ts : TokenStream σ) : ts.next.1 = ts.lookahead.1 := by
  rcases ts with ⟨lexer, _ | token⟩ <;> simp [lookahead, next]

theorem size_lookahead (ts : TokenStream σ) : ts.lookahead.2.size ≤ ts.size := by
  rcases ts with ⟨lexer, _ | token⟩
  · have := lexer.length_rest_next
    simp only [lookahead, size]
    cases h : lexer.next.1.isEnd <;> simp_all
  · simp [lookahead]

theorem size_next (ts : TokenStream σ) : ts.next.2.size ≤ ts.size := by
  rcases ts with ⟨lexer, _ | token⟩
  · have hl := Nat.le_of_add_right_le lexer.length_rest_next
    simpa [next, size] using hl
  · simp [next, size]

/-- Taking a symbol leaves fewer to take. -/
theorem size_next_lt {ts : TokenStream σ} (h : ts.lookahead.1.isEnd = false) :
    ts.next.2.size < ts.size := by
  rcases ts with ⟨lexer, _ | token⟩
  · have hl := lexer.length_rest_next
    rw [show lexer.next.1.isEnd = false from h, if_neg Bool.false_ne_true] at hl
    exact hl
  · rw [lookahead] at h
    simp [next, size, h]

theorem size_next_lt_of_symbol {ts : TokenStream σ} {s : Symbol}
    (h : ts.lookahead.1.kind = .symbol s) : ts.next.2.size < ts.size :=
  size_next_lt (by simp [Token.isEnd, h])

end TokenStream

end Brainfuck
