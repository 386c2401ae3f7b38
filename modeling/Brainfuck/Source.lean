import Brainfuck.Channel

/-!
# Sources of characters

A source hands out characters one at a time until it runs dry, and stays dry. All that a reader of
a source can learn is the list of characters still to come and the number handed out so far.
-/

namespace Brainfuck

/-- The answer of a source that is asked for a character. -/
inductive Supply where
  | char (c : Char)
  | ended
  /-- The source met a read failure, which ends it. -/
  | failed (e : IoError)
deriving DecidableEq, Repr

def Supply.char? : Supply → Option Char
  | char c => some c
  | _ => none

class Source (σ : Type) where
  supply : σ → Supply × σ
  /-- The number of characters supplied so far. -/
  position : σ → Nat
  /-- The characters still to come. -/
  rest : σ → List Char
  rest_of_char {s : σ} {c : Char} (h : (supply s).1.char? = some c) :
    rest s = c :: rest (supply s).2
  rest_of_end {s : σ} (h : (supply s).1.char? = none) : rest s = []
  rest_after_end {s : σ} (h : (supply s).1.char? = none) : rest (supply s).2 = []
  position_of_char {s : σ} {c : Char} (h : (supply s).1.char? = some c) :
    position (supply s).2 = position s + 1
  position_of_end {s : σ} (h : (supply s).1.char? = none) :
    position (supply s).2 = position s

namespace Source

variable {σ : Type} [Source σ]

/-- A source supplies the first of the characters still to come. -/
theorem char?_supply (s : σ) : (supply s).1.char? = (rest s).head? := by
  cases h : (supply s).1.char? with
  | none => simp [rest_of_end h]
  | some c => simp [rest_of_char h]

theorem rest_supply (s : σ) : rest (supply s).2 = (rest s).tail := by
  cases h : (supply s).1.char? with
  | none => simp [rest_of_end h, rest_after_end h]
  | some c => simp [rest_of_char h]

end Source

end Brainfuck
