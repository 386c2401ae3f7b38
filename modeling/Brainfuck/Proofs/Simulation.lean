import Brainfuck.Progress

/-!
# Simulation

One kind of run follows another when each step of the one is some steps of the other, and at least
one. Then the one ends exactly if the other does.
-/

namespace Brainfuck.Progress

variable {σ τ ρ ρ' : Type} {step : σ → Progress σ ρ} {step' : τ → Progress τ ρ'}
  {R : σ → τ → Prop} {S : ρ → ρ' → Prop} {s : σ} {t : τ} {r : ρ} {r' : ρ'}

/-- The same run with its states and its results seen in another way. -/
def map (f : σ → τ) (g : ρ → ρ') : Progress σ ρ → Progress τ ρ'
  | .running s => .running (f s)
  | .stopped r => .stopped (g r)

/-- What a step leads to, some steps of the other run lead to as well. -/
inductive Tracked (step : σ → Progress σ ρ) (step' : τ → Progress τ ρ') (R : σ → τ → Prop)
    (S : ρ → ρ' → Prop) (s : σ) (t : τ) : Prop where
  | running {next : σ} {n : Nat} {next' : τ} : step s = .running next → 0 < n →
      follow step' n t = .running next' → R next next' → Tracked step step' R S s t
  | stopped {r : ρ} {r' : ρ'} : step s = .stopped r → Ends step' t r' → S r r' →
      Tracked step step' R S s t

/-- Related states stay related, and stop with related results. -/
def Simulates (step : σ → Progress σ ρ) (step' : τ → Progress τ ρ') (R : σ → τ → Prop)
    (S : ρ → ρ' → Prop) : Prop :=
  ∀ s t, R s t → Tracked step step' R S s t

theorem Tracked.of_running {next : σ} {next' : τ} (hs : step s = .running next)
    (ht : step' t = .running next') (hR : R next next') : Tracked step step' R S s t :=
  .running hs Nat.one_pos (follow_one_of_running ht) hR

theorem Tracked.of_stopped (hs : step s = .stopped r) (ht : step' t = .stopped r')
    (hS : S r r') : Tracked step step' R S s t :=
  .stopped hs (ends_of_stopped ht) hS

theorem Simulates.ends (h : Simulates step step' R S) (hR : R s t) (hs : Ends step s r) :
    ∃ r', Ends step' t r' ∧ S r r' := by
  obtain ⟨n, hn⟩ := hs
  induction n generalizing s t with
  | zero => simp [follow] at hn
  | succ n ih =>
    rcases h s t hR with ⟨hstep, -, hk, hnext⟩ | ⟨hstep, hr', hS⟩
    · rw [follow_succ_of_running hstep] at hn
      obtain ⟨r', hr', hS⟩ := ih hnext hn
      exact ⟨r', hr'.of_follow hk, hS⟩
    · rw [follow_succ_of_stopped hstep] at hn
      cases hn
      exact ⟨_, hr', hS⟩

theorem Simulates.ends_of_ends (h : Simulates step step' R S) (hR : R s t)
    (ht : Ends step' t r') : ∃ r, Ends step s r ∧ S r r' := by
  obtain ⟨n, hn⟩ := ht
  -- The induction is on the longer run, of which each step of the other uses up one at least.
  induction n using Nat.strongRecOn generalizing s t with
  | ind n ih =>
    rcases h s t hR with @⟨next, k, next', hstep, hpos, hk, hnext⟩ | ⟨hstep, hr₁, hS⟩
    · have hlt : k < n := by
        apply Nat.lt_of_not_le
        intro hle
        rw [follow_of_stopped hn hle] at hk
        contradiction
      obtain ⟨m, rfl⟩ := Nat.exists_eq_add_of_le (Nat.le_of_lt hlt)
      rw [follow_add_of_running hk] at hn
      obtain ⟨r, hr, hS⟩ := ih m (by omega) hnext hn
      exact ⟨r, hr.of_step hstep, hS⟩
    · obtain rfl := hr₁.unique ⟨n, hn⟩
      exact ⟨_, ends_of_stopped hstep, hS⟩

/-! ## Side by side -/

inductive Alongside (R : σ → τ → Prop) (S : ρ → ρ' → Prop) : Progress σ ρ → Progress τ ρ' → Prop
    where
  | running {s : σ} {t : τ} : R s t → Alongside R S (.running s) (.running t)
  | stopped {r : ρ} {r' : ρ'} : S r r' → Alongside R S (.stopped r) (.stopped r')

theorem Alongside.of_running {y : Progress τ ρ'} (h : Alongside R S (.running s) y) :
    ∃ t, y = .running t ∧ R s t := by
  cases h with
  | running hR => exact ⟨_, rfl, hR⟩

theorem Alongside.of_stopped {y : Progress τ ρ'} (h : Alongside R S (.stopped r) y) :
    ∃ r', y = .stopped r' ∧ S r r' := by
  cases h with
  | stopped hS => exact ⟨_, rfl, hS⟩

theorem Alongside.of_stopped_right {x : Progress σ ρ} (h : Alongside R S x (.stopped r')) :
    ∃ r, x = .stopped r ∧ S r r' := by
  cases h with
  | stopped hS => exact ⟨_, rfl, hS⟩

/-- Runs that take each step together stay together. -/
theorem alongside_follow (h : ∀ s t, R s t → Alongside R S (step s) (step' t)) (hR : R s t)
    (n : Nat) : Alongside R S (follow step n s) (follow step' n t) := by
  induction n generalizing s t with
  | zero => exact .running hR
  | succ n ih =>
    have hstep := h s t hR
    unfold follow
    revert hstep
    generalize step s = x
    generalize step' t = y
    rintro (hnext | hend)
    · exact ih hnext
    · exact .stopped hend

section Ends

variable (h : ∀ n, Alongside R S (follow step n s) (follow step' n t))
include h

theorem Ends.of_alongside (hr : Ends step s r) : ∃ r', Ends step' t r' ∧ S r r' := by
  obtain ⟨n, hn⟩ := hr
  have hboth := h n
  rw [hn] at hboth
  obtain ⟨r', hr', hS⟩ := hboth.of_stopped
  exact ⟨r', ⟨n, hr'⟩, hS⟩

theorem Ends.of_alongside_right (hr' : Ends step' t r') : ∃ r, Ends step s r ∧ S r r' := by
  obtain ⟨n, hn⟩ := hr'
  have hboth := h n
  rw [hn] at hboth
  obtain ⟨r, hr, hS⟩ := hboth.of_stopped_right
  exact ⟨r, ⟨n, hr⟩, hS⟩

end Ends

/-! ## Waiting -/

/-- The first run takes a step while the other waits, and gets smaller by it, or both take a step
together. -/
def StepsOrWaits (step : σ → Progress σ ρ) (step' : τ → Progress τ ρ') (size : σ → Nat)
    (R : σ → τ → Prop) (S : ρ → ρ' → Prop) (s : σ) (t : τ) : Prop :=
  (∃ next, step s = running next ∧ size next < size s ∧ R next t) ∨
    Alongside R S (step s) (step' t)

section Waiting

variable {size : σ → Nat} (h : ∀ s t, R s t → StepsOrWaits step step' size R S s t)
include h

theorem exists_le_alongside (n : Nat) (hR : R s t) :
    ∃ k ≤ n, Alongside R S (follow step n s) (follow step' k t) := by
  induction n generalizing s t with
  | zero => exact ⟨0, Nat.le_refl 0, .running hR⟩
  | succ n ih =>
    rcases h s t hR with ⟨next, hstep, -, hnext⟩ | hboth
    · -- The other run waits, and needs no step for this one.
      obtain ⟨k, hk, halong⟩ := ih hnext
      rw [follow_succ_of_running hstep]
      exact ⟨k, by omega, halong⟩
    · cases hs : step s with
      | running next =>
        rw [hs] at hboth
        obtain ⟨next', ht, hnext⟩ := hboth.of_running
        obtain ⟨k, hk, halong⟩ := ih hnext
        rw [follow_succ_of_running hs]
        refine ⟨k + 1, by omega, ?_⟩
        rwa [follow_succ_of_running ht]
      | stopped r =>
        rw [hs] at hboth
        obtain ⟨r', ht, hS⟩ := hboth.of_stopped
        rw [follow_succ_of_stopped hs]
        refine ⟨1, by omega, ?_⟩
        rw [follow_succ_of_stopped ht]
        exact .stopped hS

/-- Nobody waits for ever. -/
theorem exists_together (hR : R s t) :
    ∃ n s', follow step n s = running s' ∧ Alongside R S (step s') (step' t) := by
  induction hsize : size s using Nat.strongRecOn generalizing s with
  | ind n ih =>
    rcases h s t hR with ⟨next, hstep, hlt, hnext⟩ | hboth
    · obtain ⟨k, s', hs', hboth⟩ := ih (size next) (hsize ▸ hlt) hnext rfl
      exact ⟨k + 1, s', (follow_succ_of_running hstep).trans hs', hboth⟩
    · exact ⟨0, s, rfl, hboth⟩

theorem exists_ge_alongside (k : Nat) (hR : R s t) :
    ∃ n ≥ k, Alongside R S (follow step n s) (follow step' k t) := by
  induction k generalizing s t with
  | zero => exact ⟨0, Nat.le_refl 0, .running hR⟩
  | succ k ih =>
    -- The first run is followed until it has to take a step together with the other.
    obtain ⟨j, s', hs', hboth⟩ := exists_together h hR
    cases hs : step s' with
    | running next =>
      rw [hs] at hboth
      obtain ⟨next', ht, hnext⟩ := hboth.of_running
      obtain ⟨n, hn, halong⟩ := ih hnext
      refine ⟨j + (n + 1), by omega, ?_⟩
      rwa [follow_add_of_running hs', follow_succ_of_running hs, follow_succ_of_running ht]
    | stopped r =>
      rw [hs] at hboth
      obtain ⟨r', ht, hS⟩ := hboth.of_stopped
      refine ⟨j + (k + 1), by omega, ?_⟩
      rw [follow_add_of_running hs', follow_succ_of_stopped hs, follow_succ_of_stopped ht]
      exact .stopped hS

end Waiting

end Brainfuck.Progress
