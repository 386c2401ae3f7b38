/-!
# Runs

A run goes on step by step until it stops with a result, or for ever. It is followed for a number of
steps, and it ends when it stops after some number of them.
-/

namespace Brainfuck

/-- What a step comes to. -/
inductive Progress (σ ρ : Type) where
  | running (s : σ)
  | stopped (r : ρ)

namespace Progress

variable {σ ρ : Type}

/-- Follows a run for at most `steps` steps. -/
def follow (step : σ → Progress σ ρ) : (steps : Nat) → σ → Progress σ ρ
  | 0, s => running s
  | steps + 1, s =>
    match step s with
    | running next => follow step steps next
    | stopped r => stopped r

variable {step : σ → Progress σ ρ} {s next : σ} {r r' : ρ} {n k : Nat}

theorem follow_succ_of_running (h : step s = running next) :
    follow step (n + 1) s = follow step n next := by
  rw [follow, h]

theorem follow_one_of_running (h : step s = running next) : follow step 1 s = running next :=
  follow_succ_of_running h

theorem follow_succ_of_stopped (h : step s = stopped r) : follow step (n + 1) s = stopped r := by
  rw [follow, h]

theorem follow_add (n k : Nat) (s : σ) :
    follow step (n + k) s = match follow step n s with
      | running next => follow step k next
      | stopped r => stopped r := by
  induction n generalizing s with
  | zero => simp [follow]
  | succ n ih =>
    rw [Nat.succ_add, follow, follow]
    split
    · exact ih _
    · rfl

theorem follow_add_of_running (h : follow step n s = running next) (k : Nat) :
    follow step (n + k) s = follow step k next := by
  rw [follow_add, h]

theorem follow_of_stopped (h : follow step n s = stopped r) (hk : n ≤ k) :
    follow step k s = stopped r := by
  obtain ⟨j, rfl⟩ := Nat.exists_eq_add_of_le hk
  rw [follow_add, h]

/-! ## Ends -/

def Ends (step : σ → Progress σ ρ) (s : σ) (r : ρ) : Prop := ∃ n, follow step n s = stopped r

theorem Ends.unique (h : Ends step s r) (h' : Ends step s r') : r = r' := by
  obtain ⟨n, hn⟩ := h
  obtain ⟨k, hk⟩ := h'
  have hn' := follow_of_stopped hn (Nat.le_max_left n k)
  rw [follow_of_stopped hk (Nat.le_max_right n k)] at hn'
  exact (stopped.inj hn').symm

theorem ends_of_stopped (h : step s = stopped r) : Ends step s r :=
  ⟨1, follow_succ_of_stopped h⟩

theorem Ends.of_step (h : step s = running next) (he : Ends step next r) : Ends step s r := by
  obtain ⟨n, hn⟩ := he
  exact ⟨n + 1, by rw [follow_succ_of_running h, hn]⟩

theorem Ends.of_follow (hn : follow step n s = running next) (h : Ends step next r) :
    Ends step s r := by
  obtain ⟨k, hk⟩ := h
  exact ⟨n + k, by rw [follow_add_of_running hn, hk]⟩

theorem ends_iff_of_follow (hn : follow step n s = running next) :
    Ends step s r ↔ Ends step next r := by
  refine ⟨?_, Ends.of_follow hn⟩
  rintro ⟨k, hk⟩
  have hle : n ≤ k := by
    apply Nat.le_of_not_lt
    intro hlt
    rw [follow_of_stopped hk (Nat.le_of_lt hlt)] at hn
    contradiction
  obtain ⟨j, rfl⟩ := Nat.exists_eq_add_of_le hle
  exact ⟨j, (follow_add_of_running hn j).symm.trans hk⟩

/-! ## At every point of a run -/

def Always (step : σ → Progress σ ρ) (P : σ → Prop) (s : σ) : Prop :=
  ∀ n t, follow step n s = running t → P t

variable {P : σ → Prop}

theorem Always.now (h : Always step P s) : P s := h 0 s rfl

theorem Always.later (h : Always step P s) (hstep : step s = running next) :
    Always step P next :=
  fun n t ht => h (n + 1) t ((follow_succ_of_running hstep).trans ht)

theorem Always.of_running (hstep : step s = running next) (hnow : P s)
    (hlater : Always step P next) : Always step P s := by
  rintro (_ | n) t ht
  · cases ht
    exact hnow
  · exact hlater n t ((follow_succ_of_running hstep).symm.trans ht)

theorem Always.of_stopped (hstep : step s = stopped r) (hnow : P s) : Always step P s := by
  rintro (_ | n) t ht
  · cases ht
    exact hnow
  · rw [follow_succ_of_stopped hstep] at ht
    contradiction

end Progress

end Brainfuck
