import Brainfuck.Proofs.Calls
import Brainfuck.Proofs.Passage
import Mathlib.Data.List.Forall2

/-!
# The order of calls

A run calls its streams statement by statement. What has been printed is flushed before each read
and at the end, so that no read waits for a byte that nobody has seen.
-/

namespace Brainfuck

open Progress

/-! ## The calls of a step -/

namespace Execution

/-- The calls that the next step makes. -/
def calls (e : Execution) : List Call :=
  match e.todo with
  | [] => [.flush e.machine.console.nextFlush]
  | .print :: _ => (settleWrite e.machine.console.writes).asked.map (.write e.machine.value)
  | .input :: _ =>
    match e.machine.console.nextFlush with
    | .done => .flush .done :: (settleRead e.machine.console.input).asked.map .read
    | .failed x => [.flush (.failed x)]
  | .counted .. :: _ | .loop _ :: _ => []

theorem calls_print (rest : Program) (m : Machine) :
    calls ⟨.print :: rest, m⟩ =
      (settleWrite m.console.writes).interruptions.map (.write m.value) ++
        [.write m.value (settleWrite m.console.writes).answer] := by
  rw [calls, Settled.asked, List.map_append, List.map_singleton]

theorem calls_input_of_flushed (rest : Program) {m : Machine} (h : m.console.nextFlush = .done) :
    calls ⟨.input :: rest, m⟩ =
      (.flush .done :: (settleRead m.console.input).interruptions.map .read) ++
        [.read (settleRead m.console.input).answer] := by
  rw [calls]
  simp only [h]
  rw [Settled.asked, List.map_append, List.map_singleton, List.cons_append]

theorem calls_input_of_refused (rest : Program) {m : Machine} {x : IoError}
    (h : m.console.nextFlush = .failed x) :
    calls ⟨.input :: rest, m⟩ = [.flush (.failed x)] := by
  rw [calls]
  simp only [h]

/-- The byte that the next step prints, if it prints one. -/
def printed? (e : Execution) : Option UInt8 :=
  match e.todo with
  | .print :: _ =>
    match e.machine.write.1 with
    | .ok () => some e.machine.value
    | .error _ => none
  | _ => none

theorem calls_step (e : Execution) :
    (reached e.step).console.calls.toList = e.machine.console.calls.toList ++ e.calls := by
  obtain ⟨todo, m⟩ := e
  cases todo with
  | nil =>
    rw [console_step_end, Console.flush_eq]
    simp [calls]
  | cons s rest =>
    cases s with
    | print =>
      rw [console_step_print, Console.write_eq]
      simp [calls]
    | input =>
      cases hf : m.console.nextFlush with
      | done =>
        rw [console_step_input_of_flushed rest hf, calls_input_of_flushed rest hf]
        simp [Console.read_eq, Console.flush_eq, Settled.asked, hf]
      | failed x =>
        rw [console_step_input_of_refused rest hf, calls_input_of_refused rest hf]
        simp [Console.flush_eq, hf]
    | counted o n =>
      rw [console_step_counted]
      simp [calls]
    | loop body =>
      rw [console_step_loop]
      simp [calls]

theorem printed?_print (rest : Program) (m : Machine) :
    printed? ⟨.print :: rest, m⟩ =
      if (settleWrite m.console.writes).answer = .accepted then some m.value else none := by
  unfold printed?
  simp only [Machine.write_eq, Console.write_eq]
  cases (settleWrite m.console.writes).answer <;> rfl

theorem output_step (e : Execution) :
    (reached e.step).console.output.toList =
      e.machine.console.output.toList ++ e.printed?.toList := by
  obtain ⟨todo, m⟩ := e
  cases todo with
  | nil =>
    rw [console_step_end, Console.flush_eq]
    simp [printed?]
  | cons s rest =>
    cases s with
    | print =>
      rw [console_step_print, Console.write_eq, printed?_print]
      split <;> simp [*]
    | input =>
      cases hf : m.console.nextFlush with
      | done =>
        rw [console_step_input_of_flushed rest hf, Console.read_eq, Console.flush_eq]
        simp [printed?]
      | failed x =>
        rw [console_step_input_of_refused rest hf, Console.flush_eq]
        simp [printed?]
    | counted o n =>
      rw [console_step_counted]
      simp [printed?]
    | loop body =>
      rw [console_step_loop]
      simp [printed?]

theorem filterMap_accepted?_calls (e : Execution) :
    e.calls.filterMap Call.accepted? = e.printed?.toList := by
  obtain ⟨todo, m⟩ := e
  cases todo with
  | nil => rfl
  | cons s rest =>
    cases s with
    | print =>
      -- A write that was interrupted has taken nothing, so only the last one can count.
      have hints : ((settleWrite m.console.writes).interruptions.map
          (Call.write m.value)).filterMap Call.accepted? = [] := by
        rw [List.filterMap_eq_nil_iff]
        intro c hc
        obtain ⟨a, ha, rfl⟩ := List.mem_map.1 hc
        have hi : a.isInterruption = true := isInterruption_of_mem_interruptions ha
        cases a <;> trivial
      rw [calls_print, List.filterMap_append, hints, List.nil_append, printed?_print]
      cases (settleWrite m.console.writes).answer <;> rfl
    | input =>
      have hreads (answers : List ReadAnswer) :
          (answers.map Call.read).filterMap Call.accepted? = [] := by
        rw [List.filterMap_eq_nil_iff]
        intro c hc
        obtain ⟨a, -, rfl⟩ := List.mem_map.1 hc
        rfl
      rw [calls]
      simp only
      split
      · rw [List.filterMap_cons_none rfl, hreads]
        rfl
      · rfl
    | counted o n => rfl
    | loop body => rfl

end Execution

/-! ## Failing calls -/

namespace Execution

theorem streamFailure?_step (e : Execution) :
    streamFailure? e.step = e.calls.getLast?.bind Call.failure? := by
  obtain ⟨todo, m⟩ := e
  cases todo with
  | nil =>
    change _ = (Call.flush m.console.nextFlush).failure?
    rw [step_end, Machine.flush_eq, Console.flush_eq, Call.failure?_flush]
    cases m.console.nextFlush <;> rfl
  | cons s rest =>
    cases s with
    | print =>
      rw [step_print, Machine.write_eq, streamFailure?_proceed, Console.write_eq, calls_print,
        List.getLast?_concat]
      exact (Call.failure?_write _ (isInterruption_answer_settleWrite _)).symm
    | input =>
      rw [step_input]
      cases hf : m.console.nextFlush with
      | done =>
        rw [Machine.read_of_flushed hf, streamFailure?_proceed, calls_input_of_flushed rest hf,
          List.getLast?_concat]
        refine Eq.trans ?_ (Call.failure?_read (isInterruption_answer_settleRead _)).symm
        cases (settleRead m.console.input).answer <;> rfl
      | failed x =>
        rw [Machine.read_of_refused hf, calls_input_of_refused rest hf]
        rfl
    | counted o n => exact streamFailure?_proceed_apply rest m o n
    | loop body =>
      unfold step
      simp only
      split <;> rfl

theorem failure?_of_mem_dropLast {e : Execution} {c : Call} (h : c ∈ e.calls.dropLast) :
    c.failure? = none := by
  obtain ⟨todo, m⟩ := e
  cases todo with
  | nil => contradiction
  | cons s rest =>
    cases s with
    | print =>
      rw [calls_print, List.dropLast_concat] at h
      obtain ⟨a, ha, rfl⟩ := List.mem_map.1 h
      have hi : a.isInterruption = true := isInterruption_of_mem_interruptions ha
      exact Call.failure?_of_isInterruption hi
    | input =>
      cases hf : m.console.nextFlush with
      | done =>
        rw [calls_input_of_flushed rest hf, List.dropLast_concat, List.mem_cons] at h
        rcases h with rfl | h
        · rfl
        · obtain ⟨a, ha, rfl⟩ := List.mem_map.1 h
          have hi : a.isInterruption = true := isInterruption_of_mem_interruptions ha
          exact Call.failure?_of_isInterruption hi
      | failed x =>
        rw [calls_input_of_refused rest hf] at h
        contradiction
    | counted o n => contradiction
    | loop body => contradiction

theorem calls_of_step_ok {e : Execution} {m : Machine} (h : e.step = .stopped (.ok (), m)) :
    e.calls = [.flush .done] := by
  obtain ⟨todo, m₁⟩ := e
  rcases stopped_cases h with ⟨htodo, hflush⟩ | ⟨_, _, hfail, _⟩ | ⟨_, _, hfail, _⟩ |
    ⟨_, _, _, hfail, _⟩
  · obtain rfl : todo = [] := htodo
    have hok : m₁.flush.1 = .ok () := congrArg Prod.fst hflush
    rw [calls, Machine.nextFlush_of_flush_ok hok]
  all_goals contradiction

end Execution

/-! ## What a statement calls -/

/-- The calls of one statement, or of the end of the program. A call is made again only when it was
interrupted. -/
inductive Makes : Execution → List Call → Prop
  | print {rest : Program} {m : Machine} {interruptions : List WriteAnswer} {a : WriteAnswer} :
      (∀ i ∈ interruptions, i.isInterruption) → a.isInterruption = false →
      Makes ⟨.print :: rest, m⟩ ((interruptions ++ [a]).map (.write m.value))
  | input {rest : Program} {m : Machine} {interruptions : List ReadAnswer} {a : ReadAnswer} :
      (∀ i ∈ interruptions, i.isInterruption) → a.isInterruption = false →
      Makes ⟨.input :: rest, m⟩ (.flush .done :: (interruptions ++ [a]).map .read)
  | refusedInput {rest : Program} {m : Machine} {x : IoError} :
      Makes ⟨.input :: rest, m⟩ [.flush (.failed x)]
  | counted {rest : Program} {m : Machine} {o : Operator} {n : Nat} :
      Makes ⟨.counted o n :: rest, m⟩ []
  | loop {rest body : Program} {m : Machine} : Makes ⟨.loop body :: rest, m⟩ []
  | finish {m : Machine} {a : FlushAnswer} : Makes ⟨[], m⟩ [.flush a]

theorem Execution.makes_calls (e : Execution) : Makes e e.calls := by
  obtain ⟨todo, m⟩ := e
  cases todo with
  | nil => exact .finish
  | cons s rest =>
    cases s with
    | print =>
      exact .print (fun i hi => isInterruption_of_mem_interruptions hi)
        (isInterruption_answer_settleWrite _)
    | input =>
      cases hf : m.console.nextFlush with
      | done =>
        rw [calls_input_of_flushed rest hf, List.cons_append, ← List.map_singleton,
          ← List.map_append]
        exact .input (fun i hi => isInterruption_of_mem_interruptions hi)
          (isInterruption_answer_settleRead _)
      | failed x =>
        rw [calls_input_of_refused rest hf]
        exact .refusedInput
    | counted o n => exact .counted
    | loop body => exact .loop

/-! ## Reads after flushes -/

/-- After such a call a read may be made. -/
def Call.LeadsToRead (c : Call) : Prop :=
  c = .flush .done ∨ ∃ i : ReadAnswer, i.isInterruption ∧ c = .read i

/-- Each read comes directly after a flush that succeeded or a read that was interrupted. -/
def ReadsAreLed (calls : List Call) : Prop :=
  ∀ u a v, calls = u ++ .read a :: v → ∃ w c, u = w ++ [c] ∧ c.LeadsToRead

theorem readsAreLed_of_not_read {calls : List Call} (h : ∀ a, .read a ∉ calls) :
    ReadsAreLed calls := by
  rintro u a v rfl
  exact absurd (List.mem_append_right u List.mem_cons_self) (h a)

theorem ReadsAreLed.append {k l : List Call} (hk : ReadsAreLed k) (hl : ReadsAreLed l) :
    ReadsAreLed (k ++ l) := by
  intro u a v h
  rcases List.append_eq_append_iff.1 h with ⟨t, rfl, ht⟩ | ⟨t, rfl, ht⟩
  · obtain ⟨w, c, rfl, hc⟩ := hl t a v ht
    exact ⟨k ++ w, c, (List.append_assoc ..).symm, hc⟩
  · cases t with
    | nil =>
      obtain ⟨w, c, hw, -⟩ := hl [] a v ht.symm
      exact absurd hw.symm (by simp)
    | cons d t =>
      obtain ⟨rfl, -⟩ := List.cons_eq_cons.1 ht
      exact hk u a t rfl

theorem exists_lead_of_reads {interruptions : List ReadAnswer} {last a : ReadAnswer} {c : Call}
    {u v : List Call} (hints : ∀ i ∈ interruptions, i.isInterruption) (hc : c.LeadsToRead)
    (h : (interruptions ++ [last]).map Call.read = u ++ .read a :: v) :
    ∃ w d, c :: u = w ++ [d] ∧ d.LeadsToRead := by
  induction interruptions generalizing c u with
  | nil =>
    cases u with
    | nil => exact ⟨[], c, rfl, hc⟩
    | cons d u => simp at h
  | cons i interruptions ih =>
    cases u with
    | nil => exact ⟨[], c, rfl, hc⟩
    | cons d u =>
      obtain ⟨rfl, htail⟩ := List.cons_eq_cons.1 h
      have hi : (Call.read i).LeadsToRead := .inr ⟨i, hints i List.mem_cons_self, rfl⟩
      -- The read was interrupted, and so leads the one behind it.
      obtain ⟨w, d, hw, hd⟩ := ih (fun j hj => hints j (List.mem_cons_of_mem _ hj)) hi htail
      exact ⟨c :: w, d, congrArg (c :: ·) hw, hd⟩

theorem Makes.readsAreLed {e : Execution} {calls : List Call} (h : Makes e calls) :
    ReadsAreLed calls := by
  cases h with
  | @input rest m interruptions a hints _ =>
    intro u b v h
    cases u with
    | nil => simp at h
    | cons c u =>
      obtain ⟨rfl, htail⟩ := List.cons_eq_cons.1 h
      exact exists_lead_of_reads hints (.inl rfl) htail
  | _ => exact readsAreLed_of_not_read (by simp)

/-! ## The whole run -/

/-- The calls of a run and its output, step by step. -/
theorem calls_interpret (p : Program) (m : Machine) (n : Nat) :
    let executed := passed Execution.step n ⟨p, m⟩
    let console := (Execution.reached (m.interpret n p)).console
    console.calls.toList = m.console.calls.toList ++ executed.flatMap Execution.calls ∧
      console.output.toList = m.console.output.toList ++ executed.filterMap Execution.printed? := by
  refine passed_induction Execution.step ⟨p, m⟩
    (P := fun executed run =>
      (Execution.reached run).console.calls.toList =
          m.console.calls.toList ++ executed.flatMap Execution.calls ∧
        (Execution.reached run).console.output.toList =
          m.console.output.toList ++ executed.filterMap Execution.printed?) ?_ ?_ n
  · simp [Execution.reached]
  · rintro executed e ⟨hcalls, houtput⟩
    constructor
    · rw [Execution.calls_step]
      change e.machine.console.calls.toList = _ at hcalls
      rw [hcalls]
      simp
    · rw [Execution.output_step]
      change e.machine.console.output.toList = _ at houtput
      rw [houtput]
      cases h : e.printed? <;> simp [h]

theorem callsSince_interpret (p : Program) (m : Machine) (n : Nat) :
    m.callsSince (Execution.reached (m.interpret n p)) =
      (passed Execution.step n ⟨p, m⟩).flatMap Execution.calls :=
  Machine.callsSince_eq (calls_interpret p m n).1

theorem callsSince_succ {p : Program} {m : Machine} {k : Nat} {e : Execution}
    (h : m.interpret k p = .running e) :
    m.callsSince (Execution.reached (m.interpret (k + 1) p)) =
      m.callsSince e.machine ++ e.calls := by
  have hbefore := callsSince_interpret p m k
  rw [h] at hbefore
  change m.callsSince e.machine = _ at hbefore
  rw [callsSince_interpret, passed_succ_of_follow h, List.flatMap_append, List.flatMap_singleton,
    hbefore]

theorem callsSince_last {p : Program} {m m₁ : Machine} {k : Nat} {e : Execution}
    {r : Except Fault Unit} (hrun : m.interpret k p = .running e)
    (hstop : e.step = .stopped (r, m₁)) :
    m.callsSince m₁ = m.callsSince e.machine ++ e.calls := by
  have hend : m.interpret (k + 1) p = .stopped (r, m₁) := (follow_succ_of_follow hrun).trans hstop
  have hsucc := callsSince_succ hrun
  rw [hend] at hsucc
  exact hsucc

/-- The calls made so far, of which only the last can have failed. -/
structure FailsAtLast (made : List Call) (run : Progress Execution (Except Fault Unit × Machine)) :
    Prop where
  before : ∀ c ∈ made.dropLast, c.failure? = none
  last : Execution.streamFailure? run = made.getLast?.bind Call.failure?

theorem FailsAtLast.of_running {made : List Call} {e : Execution}
    (h : FailsAtLast made (.running e)) : ∀ c ∈ made, c.failure? = none := by
  intro c hc
  rcases List.eq_nil_or_concat made with rfl | ⟨before, d, rfl⟩
  · contradiction
  · rw [List.concat_eq_append] at h hc
    rcases List.mem_append.1 hc with hc | hc
    · refine h.before c ?_
      rwa [List.dropLast_concat]
    · have hd := h.last
      rw [List.getLast?_concat] at hd
      rw [List.mem_singleton.1 hc]
      exact hd.symm

theorem FailsAtLast.step {made : List Call} {e : Execution} (h : FailsAtLast made (.running e)) :
    FailsAtLast (made ++ e.calls) e.step := by
  constructor
  · intro c hc
    rw [List.dropLast_append] at hc
    split at hc
    · exact h.before c hc
    · rcases List.mem_append.1 hc with hc | hc
      · exact h.of_running c hc
      · exact Execution.failure?_of_mem_dropLast hc
  · rw [Execution.streamFailure?_step, List.getLast?_append]
    cases hlast : e.calls.getLast? with
    | none => exact h.last
    | some c => rfl

/-- A run ends at the first call that fails, with its failure. -/
theorem failsAtLast_interpret (p : Program) (m : Machine) (n : Nat) :
    FailsAtLast ((passed Execution.step n ⟨p, m⟩).flatMap Execution.calls) (m.interpret n p) := by
  refine passed_induction Execution.step ⟨p, m⟩
    (P := fun executed run => FailsAtLast (executed.flatMap Execution.calls) run) ?_ ?_ n
  · exact ⟨by simp, rfl⟩
  · intro executed e h
    rw [List.flatMap_append, List.flatMap_singleton]
    exact h.step

theorem failure?_of_running {p : Program} {m : Machine} {n : Nat} {e : Execution}
    (h : m.interpret n p = .running e) : ∀ c ∈ m.callsSince e.machine, c.failure? = none := by
  have hfails := failsAtLast_interpret p m n
  have hcalls := callsSince_interpret p m n
  rw [h] at hfails hcalls
  change m.callsSince e.machine = _ at hcalls
  rw [hcalls]
  exact hfails.of_running

theorem readsAreLed_flatMap (executed : List Execution) :
    ReadsAreLed (executed.flatMap Execution.calls) := by
  induction executed with
  | nil => exact readsAreLed_of_not_read (by simp)
  | cons e executed ih =>
    rw [List.flatMap_cons]
    exact e.makes_calls.readsAreLed.append ih

theorem filterMap_accepted?_flatMap (executed : List Execution) :
    (executed.flatMap Execution.calls).filterMap Call.accepted? =
      executed.filterMap Execution.printed? := by
  rw [List.filterMap_flatMap, List.filterMap_eq_flatMap_toList]
  exact congrArg executed.flatMap (funext Execution.filterMap_accepted?_calls)

/-- The calls of a run are those of its statements, in order. -/
theorem calls_follow_statements (p : Program) (m : Machine) (n : Nat) :
    let executed := passed Execution.step n ⟨p, m⟩
    let made := m.callsSince (Execution.reached (m.interpret n p))
    (∃ segments, List.Forall₂ Makes executed segments ∧ made = segments.flatten) ∧
      (∀ c ∈ made.dropLast, c.failure? = none) ∧
      ReadsAreLed made ∧
      (∀ m', m.interpret n p = .stopped (.ok (), m') → ∃ w, made = w ++ [.flush .done]) ∧
      made.filterMap Call.accepted? = executed.filterMap Execution.printed? ∧
      (Execution.reached (m.interpret n p)).console.output.toList =
        m.console.output.toList ++ executed.filterMap Execution.printed? := by
  intro executed made
  have hmade : made = executed.flatMap Execution.calls := callsSince_interpret p m n
  refine ⟨⟨executed.map Execution.calls, ?_, ?_⟩, ?_, ?_, ?_, ?_, (calls_interpret p m n).2⟩
  · rw [List.forall₂_map_right_iff, List.forall₂_same]
    exact fun e _ => e.makes_calls
  · rw [hmade, List.flatMap_def]
  · rw [hmade]
    exact (failsAtLast_interpret p m n).before
  · rw [hmade]
    exact readsAreLed_flatMap executed
  · intro m' h
    -- Only the end of the program stops without an error, and it calls the flush.
    obtain ⟨k, e, -, hrun, hstop⟩ := exists_last_step h
    refine ⟨m.callsSince e.machine, ?_⟩
    rw [← Execution.calls_of_step_ok hstop, ← callsSince_last hrun hstop]
    change m.callsSince (Execution.reached (m.interpret n p)) = _
    rw [h]
    rfl
  · rw [hmade]
    exact filterMap_accepted?_flatMap executed

end Brainfuck
