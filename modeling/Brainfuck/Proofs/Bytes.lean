import Mathlib.Data.Int.ModEq

/-!
# Bytes as integers

A byte stands for the integers that are the same modulo 256.
-/

namespace Brainfuck

theorem ofInt_natCast (n : Nat) : UInt8.ofInt n = UInt8.ofNat n := by
  have hmod : ((n : Int) % 2 ^ 8).toNat = n % 2 ^ 8 := by omega
  rw [UInt8.ofInt, hmod, UInt8.ofNat_mod_size]

theorem ofInt_toNat (v : UInt8) : UInt8.ofInt v.toNat = v := by
  rw [ofInt_natCast, UInt8.ofNat_toNat]

theorem ofInt_sub (x y : Int) : UInt8.ofInt (x - y) = UInt8.ofInt x - UInt8.ofInt y := by
  rw [Int.sub_eq_add_neg, UInt8.ofInt_add, UInt8.ofInt_neg, UInt8.sub_eq_add_neg]

theorem toNat_ofInt (x : Int) : ((UInt8.ofInt x).toNat : Int) = x % 256 := by
  rw [UInt8.ofInt, UInt8.toNat_ofNat']
  omega

theorem ofInt_eq_ofInt_iff {x y : Int} : UInt8.ofInt x = UInt8.ofInt y ↔ x ≡ y [ZMOD 256] := by
  unfold Int.ModEq
  rw [← toNat_ofInt, ← toNat_ofInt, Int.natCast_inj, UInt8.toNat_inj]

end Brainfuck
