import Mathlib.Data.List.Basic
import Mathlib.Data.Nat.Find

/-!
# Brackets in a text

The balance of a text counts its opening brackets up and its closing ones down. Which bracket closes
which, which one closes nothing and which one stays open are said with it alone.
-/

namespace Brainfuck

/-- How many more `opening` than `closing` characters there are. -/
def excess (opening closing : Char) (text : List Char) : Int :=
  text.count opening - text.count closing

/-- The number of `[` minus the number of `]`. -/
def balance (text : List Char) : Int := text.count '[' - text.count ']'

/-- No prefix closes more than it opened. -/
def NeverNegative (text : List Char) : Prop := ∀ k, 0 ≤ balance (text.take k)

def Balanced (text : List Char) : Prop := NeverNegative text ∧ balance text = 0

/-- The bracket at `j` is closed by the one at `k`: what stands between them is balanced. -/
structure Matches (text : List Char) (j k : Nat) : Prop where
  opens : text[j]? = some '['
  closes : text[k]? = some ']'
  lt : j < k
  between : Balanced ((text.take k).drop (j + 1))

/-- The character at `i` is the first to make the balance negative. -/
def FirstStray (text : List Char) (i : Nat) : Prop :=
  balance (text.take (i + 1)) < 0 ∧ ∀ k ≤ i, 0 ≤ balance (text.take k)

/-- The bracket at `j` is the last one that nothing closes. -/
structure LastOpen (text : List Char) (j : Nat) : Prop where
  opens : text[j]? = some '['
  unclosed : ∀ k, ¬Matches text j k
  last : ∀ j', j < j' → text[j']? = some '[' → ∃ k, Matches text j' k

theorem neverNegative_iff {text : List Char} :
    NeverNegative text ↔ ∀ k ≤ text.length, 0 ≤ balance (text.take k) := by
  refine ⟨fun h k _ => h k, fun h k => ?_⟩
  rcases Nat.le_total k text.length with hk | hk
  · exact h k hk
  · rw [List.take_of_length_le hk, ← List.take_length (l := text)]
    exact h _ (Nat.le_refl _)

instance : DecidablePred NeverNegative := fun _ => decidable_of_iff' _ neverNegative_iff

instance : DecidablePred Balanced := fun _ => inferInstanceAs (Decidable (_ ∧ _))

theorem matches_iff {text : List Char} {j k : Nat} :
    Matches text j k ↔ text[j]? = some '[' ∧ text[k]? = some ']' ∧ j < k ∧
      Balanced ((text.take k).drop (j + 1)) :=
  ⟨fun h => ⟨h.opens, h.closes, h.lt, h.between⟩, fun h => ⟨h.1, h.2.1, h.2.2.1, h.2.2.2⟩⟩

instance (text : List Char) (j k : Nat) : Decidable (Matches text j k) :=
  decidable_of_iff' _ matches_iff

/-! ## Balance -/

@[simp] theorem excess_append {opening closing : Char} (text more : List Char) :
    excess opening closing (text ++ more) =
      excess opening closing text + excess opening closing more := by
  unfold excess
  simp only [List.count_append]
  omega

theorem excess_opening {opening closing : Char} (hne : opening ≠ closing) (text : List Char) :
    excess opening closing (opening :: text) = excess opening closing text + 1 := by
  simp [excess, hne]
  omega

theorem excess_closing {opening closing : Char} (hne : opening ≠ closing) (text : List Char) :
    excess opening closing (closing :: text) = excess opening closing text - 1 := by
  simp [excess, hne.symm]
  omega

theorem balance_eq_excess (text : List Char) : balance text = excess '[' ']' text := rfl

@[simp] theorem balance_nil : balance [] = 0 := rfl

@[simp] theorem balance_append (text more : List Char) :
    balance (text ++ more) = balance text + balance more := by
  simp only [balance_eq_excess, excess_append]

@[simp] theorem balance_open (text : List Char) : balance ('[' :: text) = balance text + 1 := by
  simp only [balance_eq_excess, excess_opening (by decide : '[' ≠ ']')]

@[simp] theorem balance_close (text : List Char) : balance (']' :: text) = balance text - 1 := by
  simp only [balance_eq_excess, excess_closing (by decide : '[' ≠ ']')]

theorem balance_other {c : Char} (ho : c ≠ '[') (hc : c ≠ ']') (text : List Char) :
    balance (c :: text) = balance text := by
  simp [balance, ho, hc]

theorem balance_take_add_drop (text : List Char) (k : Nat) :
    balance (text.take k) + balance (text.drop k) = balance text := by
  rw [← balance_append, List.take_append_drop]

/-! ## Balanced texts -/

theorem NeverNegative.take {text : List Char} (h : NeverNegative text) (k : Nat) :
    NeverNegative (text.take k) := by
  intro m
  rw [List.take_take]
  exact h _

theorem NeverNegative.balance_nonneg {text : List Char} (h : NeverNegative text) :
    0 ≤ balance text := by
  have := h text.length
  rwa [List.take_length] at this

theorem neverNegative_append {text more : List Char} (h : NeverNegative text)
    (hm : ∀ k, 0 ≤ balance text + balance (more.take k)) : NeverNegative (text ++ more) := by
  intro k
  rw [List.take_append, balance_append]
  by_cases hk : k ≤ text.length
  · rw [Nat.sub_eq_zero_of_le hk, List.take_zero, balance_nil]
    simpa using h k
  · rw [List.take_of_length_le (by omega)]
    exact hm _

theorem balanced_nil : Balanced [] := ⟨by simp [NeverNegative], rfl⟩

theorem Balanced.append {text more : List Char} (h : Balanced text) (hm : Balanced more) :
    Balanced (text ++ more) := by
  refine ⟨neverNegative_append h.1 fun k => ?_, ?_⟩
  · rw [h.2, Int.zero_add]
    exact hm.1 k
  · rw [balance_append, h.2, hm.2, Int.zero_add]

theorem balanced_other {c : Char} (ho : c ≠ '[') (hc : c ≠ ']') : Balanced [c] := by
  refine ⟨fun k => ?_, by rw [balance_other ho hc, balance_nil]⟩
  rcases k with _ | k
  · simp
  · simp [balance_other ho hc]

theorem Balanced.loop {text : List Char} (h : Balanced text) :
    Balanced ('[' :: (text ++ [']'])) := by
  refine ⟨?_, by simp [h.2]⟩
  intro k
  rcases k with _ | k
  · simp
  rw [List.take_succ_cons, balance_open, List.take_append, balance_append]
  have htext := h.1 k
  rcases k - text.length with _ | m
  · simp
    omega
  · simp
    omega

/-! ## Which bracket closes which -/

theorem matches_iff_split {text : List Char} {j k : Nat} :
    Matches text j k ↔ ∃ u v w, text = u ++ '[' :: (v ++ ']' :: w) ∧ u.length = j ∧
      j + 1 + v.length = k ∧ Balanced v := by
  constructor
  · rintro ⟨hopen, hclose, hlt, hbetween⟩
    obtain ⟨hj, hopen⟩ := List.getElem?_eq_some_iff.1 hopen
    obtain ⟨hk, hclose⟩ := List.getElem?_eq_some_iff.1 hclose
    refine ⟨text.take j, (text.take k).drop (j + 1), text.drop (k + 1), ?_, ?_, ?_, hbetween⟩
    · have hbefore : text.take k = text.take j ++ '[' :: (text.take k).drop (j + 1) := by
        conv_lhs => rw [← List.take_append_drop j (text.take k)]
        rw [List.take_take, Nat.min_eq_left (Nat.le_of_lt hlt),
          List.drop_eq_getElem_cons (by rw [List.length_take]; omega), List.getElem_take, hopen]
      calc text = text.take k ++ text.drop k := (List.take_append_drop k text).symm
        _ = (text.take j ++ '[' :: (text.take k).drop (j + 1)) ++ ']' :: text.drop (k + 1) := by
          rw [← hbefore, ← hclose, ← List.drop_eq_getElem_cons hk]
        _ = _ := by rw [List.append_assoc, List.cons_append]
    · rw [List.length_take]
      omega
    · rw [List.length_drop, List.length_take]
      omega
  · rintro ⟨u, v, w, rfl, rfl, rfl, hv⟩
    have hlen : (u ++ '[' :: v).length = u.length + 1 + v.length := by simp; omega
    have hsplit : u ++ '[' :: (v ++ ']' :: w) = (u ++ '[' :: v) ++ ']' :: w := by simp
    refine ⟨by simp, ?_, by omega, ?_⟩
    · rw [hsplit, ← hlen, List.getElem?_append_right (Nat.le_refl _)]
      simp
    · rw [hsplit, ← hlen, List.take_left, List.append_cons]
      rw [List.drop_left' (by simp)]
      exact hv

theorem Balanced.not_prefix {text more rest : List Char} (h : Balanced text)
    (hm : NeverNegative more) : more ≠ text ++ ']' :: rest := by
  rintro rfl
  have := hm (text.length + 1)
  rw [List.take_append, List.take_of_length_le (by omega), balance_append, h.2] at this
  simp at this

theorem Matches.closing_unique {text : List Char} {j k k' : Nat} (h : Matches text j k)
    (h' : Matches text j k') : k = k' := by
  obtain ⟨u, v, w, heq, hu, rfl, hv⟩ := matches_iff_split.1 h
  obtain ⟨u', v', w', heq', hu', rfl, hv'⟩ := matches_iff_split.1 h'
  rw [heq] at heq'
  obtain ⟨-, htail⟩ := List.append_inj heq' (hu.trans hu'.symm)
  -- Neither of the texts between can reach beyond the other one's closing bracket.
  rcases List.append_eq_append_iff.1 (List.cons.inj htail).2 with ⟨a, hva, hwa⟩ | ⟨a, hva, hwa⟩
  · cases a with
    | nil => simp [hva]
    | cons c a =>
      cases hwa
      exact absurd hva (hv.not_prefix hv'.1)
  · cases a with
    | nil => simp [hva]
    | cons c a =>
      cases hwa
      exact absurd hva (hv'.not_prefix hv.1)

theorem Balanced.not_suffix {text more : List Char} (h : Balanced text) (hm : Balanced more)
    (before : List Char) : more ≠ before ++ '[' :: text := by
  rintro rfl
  have hbefore := hm.1 before.length
  have hall := hm.2
  rw [List.take_left'] at hbefore
  · rw [balance_append, balance_open, h.2] at hall
    omega
  · rfl

theorem Matches.opening_unique {text : List Char} {j j' k : Nat} (h : Matches text j k)
    (h' : Matches text j' k) : j = j' := by
  obtain ⟨u, v, w, heq, rfl, hk, hv⟩ := matches_iff_split.1 h
  obtain ⟨u', v', w', heq', rfl, hk', hv'⟩ := matches_iff_split.1 h'
  have hcut : (u ++ '[' :: v) ++ ']' :: w = (u' ++ '[' :: v') ++ ']' :: w' := by
    simpa using heq.symm.trans heq'
  obtain ⟨hbefore, -⟩ := List.append_inj hcut (by simp; omega)
  -- In the longer of the two texts nothing would close the bracket of the shorter one.
  rcases List.append_eq_append_iff.1 hbefore with ⟨a, hu, hva⟩ | ⟨a, hu, hva⟩
  · cases a with
    | nil => simp [hu]
    | cons c a =>
      cases hva
      exact absurd rfl (hv'.not_suffix hv a)
  · cases a with
    | nil => simp [hu]
    | cons c a =>
      cases hva
      exact absurd rfl (hv.not_suffix hv' a)

/-! ## Brackets that nothing closes -/

theorem exists_firstStray {text : List Char} (h : ¬NeverNegative text) :
    ∃ i, FirstStray text i := by
  have hneg : ∃ k, balance (text.take k) < 0 := by
    by_contra hall
    exact h fun k => Int.not_lt.1 fun hk => hall ⟨k, hk⟩
  have hmin : ∀ k < Nat.find hneg, 0 ≤ balance (text.take k) :=
    fun k hk => Int.not_lt.1 (Nat.find_min hneg hk)
  cases hfind : Nat.find hneg with
  | zero =>
    have := Nat.find_spec hneg
    rw [hfind] at this
    simp at this
  | succ i =>
    refine ⟨i, hfind ▸ Nat.find_spec hneg, fun k hk => hmin k ?_⟩
    omega

theorem FirstStray.split {text : List Char} {i : Nat} (h : FirstStray text i) :
    ∃ u v, text = u ++ ']' :: v ∧ u.length = i ∧ Balanced u := by
  obtain ⟨hneg, hbefore⟩ := h
  have hi : i < text.length := by
    by_contra hle
    rw [List.take_of_length_le (by omega)] at hneg
    have := hbefore i (Nat.le_refl i)
    rw [List.take_of_length_le (by omega)] at this
    omega
  have hnow := hbefore i (Nat.le_refl i)
  rw [List.take_succ_eq_append_getElem hi, balance_append] at hneg
  -- Only a closing bracket lowers the balance, and by 1.
  have hc : text[i] = ']' := by
    by_contra hc
    by_cases ho : text[i] = '['
    · rw [ho] at hneg
      simp at hneg
      omega
    · rw [balance_other ho hc] at hneg
      simp at hneg
      omega
  rw [hc] at hneg
  simp at hneg
  refine ⟨text.take i, text.drop (i + 1), ?_, ?_, fun k => ?_, by omega⟩
  · rw [← hc, ← List.drop_eq_getElem_cons hi, List.take_append_drop]
  · rw [List.length_take]
    omega
  · rw [List.take_take]
    exact hbefore _ (Nat.min_le_right k i)

/-- A text that opens more than it closes leaves a last bracket open. -/
theorem exists_open_split (text : List Char) (h : 0 < balance text) :
    ∃ u v, text = u ++ '[' :: v ∧ Balanced v := by
  -- As long as more is opened than closed further on, the bracket stands there.
  by_cases hlater : ∃ k, 0 < k ∧ 0 < balance (text.drop k)
  · obtain ⟨k, hk, hpos⟩ := hlater
    have hlen : (text.drop k).length < text.length := by
      rw [List.length_drop]
      cases text with
      | nil => simp at h
      | cons c rest => simp; omega
    obtain ⟨u, v, heq, hv⟩ := exists_open_split (text.drop k) hpos
    refine ⟨text.take k ++ u, v, ?_, hv⟩
    rw [List.append_assoc, ← heq, List.take_append_drop]
  · have hrest : ∀ k, balance (text.drop (k + 1)) ≤ 0 := by
      intro k
      by_contra hk
      exact hlater ⟨k + 1, Nat.succ_pos k, by omega⟩
    cases text with
    | nil => simp at h
    | cons c rest =>
      have hzero := hrest 0
      rw [Nat.zero_add, List.drop_one, List.tail_cons] at hzero
      -- The first character must raise the balance.
      obtain rfl : c = '[' := by
        by_contra ho
        by_cases hc : c = ']'
        · rw [hc, balance_close] at h
          omega
        · rw [balance_other ho hc] at h
          omega
      rw [balance_open] at h
      refine ⟨[], rest, rfl, fun k => ?_, by omega⟩
      have hk := hrest k
      rw [List.drop_succ_cons] at hk
      have := balance_take_add_drop rest k
      omega
termination_by text.length

theorem lastOpen_of_balanced (u : List Char) {v : List Char} (hv : Balanced v) :
    LastOpen (u ++ '[' :: v) u.length := by
  refine ⟨by simp, ?_, ?_⟩
  · intro k hk
    obtain ⟨a, b, w, heq, ha, -, hb⟩ := matches_iff_split.1 hk
    obtain ⟨-, heq⟩ := List.append_inj heq ha.symm
    cases heq
    have := hv.1 (b.length + 1)
    rw [List.take_append, List.take_of_length_le (by omega), balance_append, hb.2] at this
    simp at this
  · intro j hlt hj
    obtain ⟨m, rfl⟩ := Nat.exists_eq_add_of_lt hlt
    rw [List.getElem?_append_right (by omega)] at hj
    simp only [show u.length + m + 1 - u.length = m + 1 by omega, List.getElem?_cons_succ] at hj
    obtain ⟨hm, hj⟩ := List.getElem?_eq_some_iff.1 hj
    -- What follows the bracket closes one more than it opens.
    have hsplit : v = v.take m ++ '[' :: v.drop (m + 1) := by
      rw [← hj, ← List.drop_eq_getElem_cons hm, List.take_append_drop]
    have hbalance := hv.2
    rw [hsplit, balance_append, balance_open] at hbalance
    have hbefore := hv.1 m
    have hneg : ¬NeverNegative (v.drop (m + 1)) := by
      intro h
      have := h.balance_nonneg
      omega
    obtain ⟨i, hi⟩ := exists_firstStray hneg
    obtain ⟨b, w, hdrop, -, hb⟩ := hi.split
    refine ⟨_, matches_iff_split.2 ⟨u ++ '[' :: v.take m, b, w, ?_, ?_, rfl, hb⟩⟩
    · conv_lhs => rw [hsplit, hdrop]
      simp
    · simp
      omega

end Brainfuck
