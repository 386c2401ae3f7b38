import Brainfuck.Proofs.Simulation

/-!
# What a run passes through

The states at which a run takes its steps, one after the other, and the last of them for a run that
stops.
-/

namespace Brainfuck.Progress

variable {σ τ ρ ρ' : Type} {step : σ → Progress σ ρ} {step' : τ → Progress τ ρ'}
  {s t : σ} {r : ρ} {n k : Nat}

/-- The states at which the first `steps` steps are taken, or all there are if the run stops. -/
def passed (step : σ → Progress σ ρ) : (steps : Nat) → σ → List σ
  | 0, _ => []
  | steps + 1, s =>
    match step s with
    | running next => s :: passed step steps next
    | stopped _ => [s]

theorem passed_of_running {next : σ} (h : step s = running next) :
    passed step (n + 1) s = s :: passed step n next := by
  rw [passed, h]

theorem passed_of_stopped (h : step s = stopped r) : passed step (n + 1) s = [s] := by
  rw [passed, h]

/-! ## The last step -/

theorem concat_eq_append_cons_iff {l before after : List σ} {a b : σ} :
    l ++ [a] = before ++ b :: after ↔
      (l = before ∧ a = b ∧ after = []) ∨
        ∃ rest, l = before ++ b :: rest ∧ after = rest ++ [a] := by
  constructor
  · intro h
    rcases List.eq_nil_or_concat after with rfl | ⟨rest, c, rfl⟩
    · obtain ⟨rfl, hab⟩ := List.append_inj' h rfl
      exact .inl ⟨rfl, List.singleton_inj.1 hab, rfl⟩
    · rw [List.concat_eq_append, ← List.cons_append, ← List.append_assoc] at h
      obtain ⟨rfl, hac⟩ := List.append_inj' h rfl
      refine .inr ⟨rest, rfl, ?_⟩
      rw [List.concat_eq_append, hac]
  · rintro (⟨rfl, rfl, rfl⟩ | ⟨rest, rfl, rfl⟩)
    · rfl
    · simp

theorem follow_succ_of_follow (h : follow step n s = running t) :
    follow step (n + 1) s = step t := by
  rw [follow_add_of_running h]
  cases hstep : step t with
  | running next => exact follow_one_of_running hstep
  | stopped r => exact follow_succ_of_stopped hstep

theorem passed_succ_of_follow (h : follow step n s = running t) :
    passed step (n + 1) s = passed step n s ++ [t] := by
  induction n generalizing s with
  | zero =>
    cases h
    cases hstep : step t with
    | running next => exact passed_of_running hstep
    | stopped r => exact passed_of_stopped hstep
  | succ n ih =>
    cases hstep : step s with
    | running next =>
      rw [follow_succ_of_running hstep] at h
      rw [passed_of_running hstep, ih h, passed_of_running hstep, List.cons_append]
    | stopped r =>
      rw [follow_succ_of_stopped hstep] at h
      contradiction

theorem passed_succ_of_follow_stopped (h : follow step n s = stopped r) :
    passed step (n + 1) s = passed step n s := by
  induction n generalizing s with
  | zero => contradiction
  | succ n ih =>
    cases hstep : step s with
    | running next =>
      rw [follow_succ_of_running hstep] at h
      rw [passed_of_running hstep, ih h, passed_of_running hstep]
    | stopped r => rw [passed_of_stopped hstep, passed_of_stopped hstep]

theorem passed_of_follow_stopped (h : follow step n s = stopped r) (hk : n ≤ k) :
    passed step k s = passed step n s := by
  induction hk with
  | refl => rfl
  | step hk ih => rw [passed_succ_of_follow_stopped (follow_of_stopped h hk), ih]

/-- What each step keeps holds at every point of a run. -/
theorem passed_induction (step : σ → Progress σ ρ) (s : σ) {P : List σ → Progress σ ρ → Prop}
    (start : P [] (running s)) (next : ∀ l t, P l (running t) → P (l ++ [t]) (step t)) (n : Nat) :
    P (passed step n s) (follow step n s) := by
  induction n with
  | zero => exact start
  | succ n ih =>
    cases h : follow step n s with
    | running t =>
      rw [h] at ih
      rw [passed_succ_of_follow h, follow_succ_of_follow h]
      exact next _ _ ih
    | stopped r =>
      rw [h] at ih
      rw [passed_succ_of_follow_stopped h, follow_of_stopped h (Nat.le_succ n)]
      exact ih

theorem forall_mem_passed {P : σ → Prop} (hnext : ∀ t next, P t → step t = running next → P next)
    (hs : P s) (n : Nat) : ∀ t ∈ passed step n s, P t := by
  induction n generalizing s with
  | zero => simp [passed]
  | succ n ih =>
    intro t ht
    cases hstep : step s with
    | running next =>
      rw [passed_of_running hstep, List.mem_cons] at ht
      rcases ht with rfl | ht
      · exact hs
      · exact ih (hnext s next hs hstep) t ht
    | stopped r =>
      rw [passed_of_stopped hstep, List.mem_singleton] at ht
      exact ht ▸ hs

theorem exists_last_step (h : follow step n s = stopped r) :
    ∃ k t, k < n ∧ follow step k s = running t ∧ step t = stopped r := by
  induction n with
  | zero => contradiction
  | succ n ih =>
    cases hn : follow step n s with
    | running t =>
      rw [follow_succ_of_follow hn] at h
      exact ⟨n, t, Nat.lt_succ_self n, hn, h⟩
    | stopped r' =>
      rw [follow_of_stopped hn (Nat.le_succ n)] at h
      cases h
      obtain ⟨k, t, hk, hrun, hstop⟩ := ih hn
      exact ⟨k, t, Nat.lt_succ_of_lt hk, hrun, hstop⟩

/-- As long as one run goes on, so does the other. -/
theorem follow_running_of_running {R : σ → τ → Prop} {t : τ} {s' : σ}
    (h : ∀ s t next, R s t → step s = running next → ∃ next', step' t = running next' ∧ R next next')
    (hR : R s t) (hs : follow step n s = running s') :
    ∃ t', follow step' n t = running t' ∧ R s' t' := by
  induction n generalizing s t with
  | zero =>
    cases hs
    exact ⟨t, rfl, hR⟩
  | succ n ih =>
    cases hstep : step s with
    | running next =>
      obtain ⟨next', hstep', hnext⟩ := h s t next hR hstep
      rw [follow_succ_of_running hstep] at hs
      obtain ⟨t', ht', hR'⟩ := ih hnext hs
      exact ⟨t', (follow_succ_of_running hstep').trans ht', hR'⟩
    | stopped r =>
      rw [follow_succ_of_stopped hstep] at hs
      contradiction

end Brainfuck.Progress
