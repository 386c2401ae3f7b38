import Brainfuck.Proofs.Placed
import Mathlib.Data.Stream.Init

/-!
# The tokens to come

The tokens of a source: the symbols of its text, each where it stands, and after them the end of the
source for ever. A token stream hands them out one by one, whatever it has shown already.
-/

namespace Brainfuck

open Source Stream'

/-- The token that a character at an offset makes, none if it is a comment. -/
def Token.ofChar? (c : Char) (offset : Nat) : Option Token :=
  (Symbol.ofChar? c).map fun s => ⟨⟨offset, offset + 1⟩, .symbol s, c⟩

/-- The symbols of a text whose first character stands at `offset`. -/
def symbolTokens (offset : Nat) (text : List Char) : List Token :=
  (text.zipIdx offset).filterMap fun (c, i) => Token.ofChar? c i

def Source.tokens {σ : Type} [Source σ] (source : σ) : Stream' Token :=
  symbolTokens (position source) (rest source) ++ₛ
    Stream'.const (.endOfFile (position source + (rest source).length))

/-- What a token stream hands out to one call of `next` after the other. -/
def TokenStream.upcoming {σ : Type} [Source σ] (ts : TokenStream σ) : Stream' Token :=
  Stream'.corec (·.next.1) (·.next.2) ts

/-! ## Symbols in place as tokens -/

namespace Placed

def tokens (finish : Nat) (ps : List Placed) : Stream' Token :=
  ps.map token ++ₛ Stream'.const (.endOfFile finish)

theorem tokens_eq_cons (finish : Nat) (ps : List Placed) :
    tokens finish ps = Stream'.cons (shown finish ps) (tokens finish ps.tail) := by
  cases ps with
  | nil => exact Stream'.const_eq _
  | cons p ps => rfl

@[simp] theorem head_tokens (finish : Nat) (ps : List Placed) :
    (tokens finish ps).head = shown finish ps := by
  rw [tokens_eq_cons]
  rfl

theorem tokens_append (finish : Nat) (ps qs : List Placed) :
    tokens finish (ps ++ qs) = ps.map token ++ₛ tokens finish qs := by
  rw [tokens, List.map_append, Stream'.append_append_stream, tokens]

end Placed

theorem Token.ofChar?_of_symbol {c : Char} {s : Symbol} (h : Symbol.ofChar? c = some s) (n : Nat) :
    Token.ofChar? c n = some (Placed.token ⟨s, n⟩) := by
  rw [Token.ofChar?, h, Option.map_some, Symbol.ofChar?_eq_some_iff.1 h]
  rfl

theorem symbolTokens_cons (offset : Nat) (c : Char) (text : List Char) :
    symbolTokens offset (c :: text) =
      (Token.ofChar? c offset).toList ++ symbolTokens (offset + 1) text := by
  rw [symbolTokens, List.zipIdx_cons, List.filterMap_cons]
  cases h : Token.ofChar? c offset <;> simp only [h] <;> rfl

theorem symbolTokens_eq (offset : Nat) (text : List Char) :
    symbolTokens offset text = (Placed.scan offset text).map Placed.token := by
  induction text generalizing offset with
  | nil => rfl
  | cons c text ih =>
    rw [symbolTokens_cons, ih]
    cases h : Symbol.ofChar? c with
    | none =>
      rw [Placed.scan_cons_of_comment h, Token.ofChar?, h]
      rfl
    | some s =>
      rw [Placed.scan_cons_of_symbol h, Token.ofChar?_of_symbol h]
      rfl

/-! ## Sources and streams -/

section Streams

variable {σ : Type} [Source σ]

theorem Source.tokens_eq {source : σ} :
    Source.tokens source = Placed.tokens (position source + (rest source).length)
      (Placed.scan (position source) (rest source)) := by
  rw [Source.tokens, symbolTokens_eq, Placed.tokens]

theorem TokenStream.Holds.upcoming_eq {ts : TokenStream σ} {ps : List Placed} {finish : Nat}
    (h : ts.Holds ps finish) : ts.upcoming = Placed.tokens finish ps := by
  refine Stream'.ext fun n => ?_
  induction n generalizing ts ps with
  | zero =>
    rw [upcoming, Stream'.corec_eq, Placed.tokens_eq_cons]
    exact h.next_fst
  | succ n ih =>
    rw [upcoming, Stream'.corec_eq, Placed.tokens_eq_cons]
    exact ih h.next

end Streams

end Brainfuck
