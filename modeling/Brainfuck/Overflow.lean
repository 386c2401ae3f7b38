/-!
# Overflow of bounded integers

Offsets are unsigned and the cell pointer is signed, both of 64 bits. An operation whose exact
result does not fit is refused. Positions and counts are kept as `Nat`, the pointer as `Int`.
-/

namespace Brainfuck

/-- The operation whose result did not fit. -/
inductive Overflow where
  | add
  | subtract
  | negate
deriving DecidableEq, Repr

namespace Overflow

def message : Overflow → String
  | add => "attempt to add with overflow"
  | subtract => "attempt to subtract with overflow"
  | negate => "attempt to negate with overflow"

end Overflow

/-- The integers that the cell pointer ranges over: those of 64 bits with a sign. -/
def inWord (i : Int) : Prop := -9223372036854775808 ≤ i ∧ i ≤ 9223372036854775807

instance (i : Int) : Decidable (inWord i) := inferInstanceAs (Decidable (_ ∧ _))

/-- The signed word that has the same 64 bits as `n`. -/
def signedWord (n : Nat) : Int := Int.bmod n 18446744073709551616

theorem signedWord_eq_self {n : Nat} (h : n ≤ 9223372036854775807) : signedWord n = n := by
  unfold signedWord
  rw [Int.bmod_eq_of_le] <;> omega

theorem signedWord_eq_sub {n : Nat} (h : 9223372036854775808 ≤ n)
    (h' : n < 18446744073709551616) : signedWord n = n - 18446744073709551616 := by
  unfold signedWord
  rw [Int.bmod_def]
  omega

theorem inWord_signedWord (n : Nat) : inWord (signedWord n) := by
  unfold inWord signedWord
  rw [Int.bmod_def]
  omega

end Brainfuck
