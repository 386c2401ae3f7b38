import Brainfuck.Machine
import Mathlib.Tactic.Ring

/-!
# Repetition

A run carried out at once, against its operator carried out again and again. Cells come out the
same. A pointer that goes too far does so in both, only that the single steps have moved it to the
limit before.
-/

namespace Brainfuck

theorem Tape.set_set (t : Tape) (i : Int) (v w : UInt8) : (t.set i v).set i w = t.set i w := by
  apply Tape.ext_getElem?
  intro j
  simp only [Tape.set, Std.ExtTreeMap.getElem?_insert]
  split <;> rfl

theorem inWord_between {p d : Int} (hp : inWord p) (hd : d = 1 ∨ d = -1) {n k : Nat}
    (h : inWord (p + n * d)) (hk : k ≤ n) : inWord (p + k * d) := by
  unfold inWord at *
  rcases hd with rfl | rfl <;> omega

namespace Machine

theorem setValue_setValue (m : Machine) (v w : UInt8) :
    (m.setValue v).setValue w = m.setValue w := by
  simp [setValue, Tape.set_set]

theorem add_add (m : Machine) (n k : Nat) : (m.add n).add k = m.add (n + k) := by
  unfold add
  rw [value_setValue, setValue_setValue, UInt8.ofNat_add, UInt8.add_assoc]

theorem sub_sub (m : Machine) (n k : Nat) : (m.sub n).sub k = m.sub (n + k) := by
  unfold sub
  rw [value_setValue, setValue_setValue, UInt8.ofNat_add, UInt8.sub_eq_add_neg,
    UInt8.sub_eq_add_neg, UInt8.sub_eq_add_neg, UInt8.neg_add, UInt8.sub_eq_add_neg,
    UInt8.add_assoc]

def once (m : Machine) : Operator → Except Fault Unit × Machine
  | .shiftLeft => m.shift (-1)
  | .shiftRight => m.shift 1
  | .increment => (.ok (), m.add 1)
  | .decrement => (.ok (), m.sub 1)

/-- One operator character again and again, until it fails. -/
def times (o : Operator) : Nat → Machine → Except Fault Unit × Machine
  | 0, m => (.ok (), m)
  | n + 1, m =>
    match m.once o with
    | (.ok (), m) => times o n m
    | (.error e, m) => (.error e, m)

variable {o : Operator} {m : Machine}

theorem times_of_ok {m' : Machine} (h : m.once o = (.ok (), m')) (n : Nat) :
    times o (n + 1) m = times o n m' := by
  rw [times, h]

theorem times_increment (n : Nat) (m : Machine) :
    times .increment (n + 1) m = (.ok (), m.add (n + 1)) := by
  induction n generalizing m with
  | zero => rfl
  | succ n ih => rw [times_of_ok rfl, ih, add_add, Nat.add_comm 1]

theorem times_decrement (n : Nat) (m : Machine) :
    times .decrement (n + 1) m = (.ok (), m.sub (n + 1)) := by
  induction n generalizing m with
  | zero => rfl
  | succ n ih => rw [times_of_ok rfl, ih, sub_sub, Nat.add_comm 1]

/-! ## Shifts -/

variable {d : Int}

theorem add_step (p d : Int) (n : Nat) : p + d + n * d = p + (n + 1 : Nat) * d := by
  push_cast
  ring

theorem times_of_inWord (ho : ∀ m : Machine, m.once o = m.shift d) (hd : d = 1 ∨ d = -1) (n : Nat)
    (hp : inWord m.pointer) (h : inWord (m.pointer + n * d)) :
    times o n m = (.ok (), { m with pointer := m.pointer + n * d }) := by
  induction n generalizing m with
  | zero => simp [times]
  | succ n ih =>
    have hone : inWord (m.pointer + d) := by
      simpa using inWord_between (k := 1) hp hd h (by omega)
    rw [← add_step] at h
    rw [times_of_ok ((ho m).trans (shift_of_inWord hone)), ih hone h, ← add_step]

theorem times_of_not_inWord (ho : ∀ m : Machine, m.once o = m.shift d) (n : Nat)
    (hp : inWord m.pointer) (h : ¬inWord (m.pointer + n * d)) :
    ∃ q, times o n m = (.error (.overflow .add), { m with pointer := q }) := by
  induction n generalizing m with
  | zero => simp [hp] at h
  | succ n ih =>
    by_cases hone : inWord (m.pointer + d)
    · rw [← add_step] at h
      rw [times_of_ok ((ho m).trans (shift_of_inWord hone))]
      exact ih hone h
    · refine ⟨m.pointer, ?_⟩
      rw [times, ho m, shift_of_not_inWord hone]

/-! ## A run at once -/

theorem apply_shiftRight {n : Nat} (hn : n < 2 ^ 63) (m : Machine) :
    m.apply .shiftRight n = m.shift (n * 1) := by
  rw [apply, signedWord_eq_self (by omega), Int.mul_one]

theorem apply_shiftLeft {n : Nat} (hn : n < 2 ^ 63) (m : Machine) :
    m.apply .shiftLeft n = m.shift (n * -1) := by
  have hword : inWord (-n) := by
    unfold inWord
    omega
  rw [apply, signedWord_eq_self (by omega), if_pos hword, Int.mul_neg_one]

/-- The run and its single steps come to the same, or both leave the word. -/
def Agree (o : Operator) (n : Nat) (m : Machine) : Prop :=
  (∃ m', m.apply o n = (.ok (), m') ∧ times o n m = (.ok (), m') ∧ inWord m'.pointer) ∨
  (∃ q, m.apply o n = (.error (.overflow .add), m) ∧
    times o n m = (.error (.overflow .add), { m with pointer := q }))

theorem agree_of_shift (ho : ∀ m : Machine, m.once o = m.shift d) (hd : d = 1 ∨ d = -1) {n : Nat}
    (hp : inWord m.pointer) (happly : m.apply o n = m.shift (n * d)) : Agree o n m := by
  by_cases h : inWord (m.pointer + n * d)
  · exact .inl ⟨_, happly.trans (shift_of_inWord h), times_of_inWord ho hd n hp h, h⟩
  · obtain ⟨q, hq⟩ := times_of_not_inWord ho n hp h
    exact .inr ⟨q, happly.trans (shift_of_not_inWord h), hq⟩

theorem agree {n : Nat} (hpos : 1 ≤ n) (hn : n < 2 ^ 63) (hp : inWord m.pointer) :
    Agree o n m := by
  obtain ⟨n, rfl⟩ := Nat.exists_eq_add_of_le' hpos
  cases o with
  | shiftLeft => exact agree_of_shift (fun _ => rfl) (.inr rfl) hp (apply_shiftLeft hn m)
  | shiftRight => exact agree_of_shift (fun _ => rfl) (.inl rfl) hp (apply_shiftRight hn m)
  | increment => exact .inl ⟨m.add (n + 1), rfl, times_increment n m, hp⟩
  | decrement => exact .inl ⟨m.sub (n + 1), rfl, times_decrement n m, hp⟩

end Machine

end Brainfuck
