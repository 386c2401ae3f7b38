import Brainfuck.Proofs.CallOrder
import Brainfuck.Proofs.OtherStreams

/-!
# Failing output

A run whose output fails, against the run of the same program on an output that never does. Up to
the failure they do the same, and an output that does not fail in the end leaves no trace but the
writes that had to be made again.
-/

namespace Brainfuck

open Progress

/-! ## An output that never fails -/

namespace Call

/-- The same call as an output answers it that never fails. -/
def granted : Call → Call
  | read a => read a
  | write b _ => write b .accepted
  | flush _ => flush .done

def isRetriedWrite : Call → Bool
  | write _ a => a.isInterruption
  | read _ | flush _ => false

end Call

/-- The calls without the writes that were interrupted. -/
def settledCalls (calls : List Call) : List Call := calls.filter (!·.isRetriedWrite)

theorem settledCalls_append (k l : List Call) :
    settledCalls (k ++ l) = settledCalls k ++ settledCalls l := List.filter_append ..

theorem settledCalls_reads (answers : List ReadAnswer) :
    settledCalls (answers.map .read) = answers.map .read := by
  rw [settledCalls, List.filter_eq_self]
  intro c hc
  obtain ⟨a, -, rfl⟩ := List.mem_map.1 hc
  rfl

theorem settledCalls_writes (b : UInt8) (script : List WriteAnswer) :
    settledCalls ((settleWrite script).asked.map (.write b)) =
      [.write b (settleWrite script).answer] := by
  have hints : settledCalls ((settleWrite script).interruptions.map (.write b)) = [] := by
    rw [settledCalls, List.filter_eq_nil_iff]
    intro c hc
    obtain ⟨a, ha, rfl⟩ := List.mem_map.1 hc
    have hi : a.isInterruption = true := isInterruption_of_mem_interruptions ha
    simp [Call.isRetriedWrite, hi]
  rw [Settled.asked, List.map_append, settledCalls_append, hints, List.nil_append]
  simp [settledCalls, Call.isRetriedWrite, isInterruption_answer_settleWrite]

def Machine.obliging (m : Machine) : Machine :=
  m.withConsole { m.console with writes := [], flushes := [] }

/-! ## One call -/

/-- The second console has an output that never fails. From the same calls on, it has made the same
ones as the first, without the writes that were interrupted. -/
structure Granted (base : List Call) (c c' : Console) : Prop where
  input_eq : c'.input = c.input
  output_eq : c'.output = c.output
  writes_eq : c'.writes = []
  flushes_eq : c'.flushes = []
  calls_eq : ∃ made, c.calls.toList = base ++ made ∧ c'.calls.toList = base ++ settledCalls made

variable {base : List Call} {c c' : Console}

theorem Granted.nextFlush_eq (h : Granted base c c') : c'.nextFlush = .done := by
  rw [Console.nextFlush, h.flushes_eq]
  rfl

theorem Granted.settleWrite_eq (h : Granted base c c') :
    settleWrite c'.writes = ⟨[], .accepted, []⟩ := by
  rw [h.writes_eq]
  rfl

theorem Granted.flush (h : Granted base c c') (hf : c.nextFlush = .done) :
    CalledAlike (Granted base) c.flush c'.flush := by
  obtain ⟨made, hcalls, hcalls'⟩ := h.calls_eq
  rw [Console.flush_eq, Console.flush_eq, hf, h.nextFlush_eq]
  refine ⟨rfl, h.input_eq, h.output_eq, h.writes_eq, ?_, made ++ [.flush .done], ?_, ?_⟩
  · simp [h.flushes_eq]
  · simp [hcalls]
  · simp [hcalls', settledCalls, Call.isRetriedWrite]

theorem Granted.read (h : Granted base c c') : CalledAlike (Granted base) c.read c'.read := by
  obtain ⟨made, hcalls, hcalls'⟩ := h.calls_eq
  rw [Console.read_eq, Console.read_eq, h.input_eq]
  refine ⟨rfl, rfl, h.output_eq, h.writes_eq, h.flushes_eq,
    made ++ (settleRead c.input).asked.map .read, ?_, ?_⟩
  · simp [hcalls]
  · rw [settledCalls_append, settledCalls_reads]
    simp [hcalls']

theorem Granted.write (h : Granted base c c') (b : UInt8)
    (ha : (settleWrite c.writes).answer = .accepted) :
    CalledAlike (Granted base) (c.write b) (c'.write b) := by
  obtain ⟨made, hcalls, hcalls'⟩ := h.calls_eq
  rw [Console.write_eq, Console.write_eq, h.settleWrite_eq, ha, h.output_eq]
  refine ⟨rfl, h.input_eq, rfl, rfl, h.flushes_eq,
    made ++ (settleWrite c.writes).asked.map (.write b), ?_, ?_⟩
  · simp [hcalls]
  · rw [settledCalls_append, settledCalls_writes, ha]
    simp [hcalls', Settled.asked]

/-! ## One step -/

/-- The step stops at a call that the output fails. The other output grants it. -/
structure Refused (todo : Program) (m : Machine) (c : Console) (d : Call) (x : IoError) : Prop where
  isOutput : d.isOutput = true
  failure?_eq : d.failure? = some x
  last_eq : (Execution.calls ⟨todo, m⟩).getLast? = some d
  settled_eq : settledCalls (Execution.calls ⟨todo, m⟩) = [d]
  step_eq : ∃ c₁, Execution.step ⟨todo, m⟩ = .stopped (.error (.io x), m.withConsole c₁) ∧
    c₁.input = m.console.input ∧ c₁.output = m.console.output
  granted : ∃ later, Execution.calls ⟨todo, m.withConsole c⟩ = d.granted :: later

theorem refused_end {m : Machine} {x : IoError} (h : Granted base m.console c)
    (hf : m.console.nextFlush = .failed x) : Refused [] m c (.flush (.failed x)) x := by
  have hcalls : Execution.calls ⟨[], m⟩ = [.flush (.failed x)] := by
    rw [Execution.calls, hf]
  have hnext : (m.withConsole c).console.nextFlush = .done := h.nextFlush_eq
  refine ⟨rfl, rfl, ?_, ?_, ⟨m.console.flush.2, ?_, ?_, ?_⟩, [], ?_⟩
  · rw [hcalls]
    rfl
  · rw [hcalls]
    rfl
  · rw [Execution.step_end, Machine.flush_eq, Console.flush_eq, hf]
    rfl
  · rw [Console.flush_eq]
  · rw [Console.flush_eq]
  · rw [Execution.calls, hnext]
    rfl

theorem refused_print {m : Machine} (rest : Program) (h : Granted base m.console c)
    (ha : (settleWrite m.console.writes).answer ≠ .accepted) :
    ∃ x, Refused (.print :: rest) m c (.write m.value (settleWrite m.console.writes).answer) x := by
  obtain ⟨x, hx⟩ : ∃ x, (settleWrite m.console.writes).answer.outcome = .error x := by
    cases hw : (settleWrite m.console.writes).answer with
    | accepted => contradiction
    | nothing => exact ⟨_, rfl⟩
    | failed x => exact ⟨x, rfl⟩
  refine ⟨x, rfl, ?_, ?_, ?_, ⟨(m.console.write m.value).2, ?_, ?_, ?_⟩, [], ?_⟩
  · rw [Call.failure?_write _ (isInterruption_answer_settleWrite _), hx]
    rfl
  · rw [Execution.calls_print, List.getLast?_concat]
  · exact settledCalls_writes _ _
  · rw [Execution.step_print, Machine.write_eq, Console.write_eq, hx]
    rfl
  · rw [Console.write_eq]
  · rw [Console.write_eq]
    exact if_neg ha
  · rw [Execution.calls, show (m.withConsole c).console.writes = c.writes from rfl]
    simp only [h.settleWrite_eq]
    rfl

theorem refused_input {m : Machine} {x : IoError} (rest : Program) (h : Granted base m.console c)
    (hf : m.console.nextFlush = .failed x) :
    Refused (.input :: rest) m c (.flush (.failed x)) x := by
  have hnext : (m.withConsole c).console.nextFlush = .done := h.nextFlush_eq
  refine ⟨rfl, rfl, ?_, ?_, ⟨m.console.flush.2, ?_, ?_, ?_⟩, ?_⟩
  · rw [Execution.calls_input_of_refused rest hf]
    rfl
  · rw [Execution.calls_input_of_refused rest hf]
    rfl
  · rw [Execution.step_input, Machine.read_of_refused hf]
    rfl
  · rw [Console.flush_eq]
  · rw [Console.flush_eq]
  · rw [Execution.calls_input_of_flushed rest hnext]
    exact ⟨_, rfl⟩

/-- Both take the step, or the first one is refused. -/
theorem stepsAlongside_or_refused {m : Machine} (h : Granted base m.console c) (todo : Program) :
    (StepsAlongside (Granted base) todo m c ∧
      ∀ d, (Execution.calls ⟨todo, m⟩).getLast? = some d → d.isOutput → d.failure? = none) ∨
    ∃ d x, Refused todo m c d x := by
  cases todo with
  | nil =>
    cases hf : m.console.nextFlush with
    | done =>
      refine .inl ⟨stepsAlongside_end (h.flush hf), ?_⟩
      rw [Execution.calls, hf]
      rintro d ⟨⟩ -
      rfl
    | failed x => exact .inr ⟨_, x, refused_end h hf⟩
  | cons s rest =>
    cases s with
    | print =>
      by_cases ha : (settleWrite m.console.writes).answer = .accepted
      · refine .inl ⟨stepsAlongside_print (h.write m.value ha), ?_⟩
        rw [Execution.calls_print, List.getLast?_concat, ha]
        rintro d ⟨⟩ -
        rfl
      · exact .inr ⟨_, refused_print rest h ha⟩
    | input =>
      cases hf : m.console.nextFlush with
      | done =>
        have hflush := h.flush hf
        refine .inl ⟨stepsAlongside_input hflush fun _ => hflush.consoles.read, ?_⟩
        rw [Execution.calls_input_of_flushed rest hf, List.getLast?_concat]
        rintro d ⟨⟩ hread
        contradiction
      | failed x => exact .inr ⟨_, x, refused_input rest h hf⟩
    | counted o n =>
      refine .inl ⟨stepsAlongside_counted h o n, ?_⟩
      rintro d ⟨⟩
    | loop body =>
      refine .inl ⟨stepsAlongside_loop h body, ?_⟩
      rintro d ⟨⟩

/-! ## The same state -/

/-- All is the same but the answers still to come from the output and the calls made. -/
structure SameState (m m' : Machine) : Prop extends SameEffect m m' where
  input_eq : m'.console.input = m.console.input

variable {m m₁ m₂ : Machine}

theorem Beside.sameState (h : Beside (Granted base) m₁ m₂) : SameState m₁ m₂ :=
  ⟨h.sameEffect h.consoles.output_eq, h.consoles.input_eq⟩

theorem Beside.callsSince_eq (h : Beside (Granted m.console.calls.toList) m₁ m₂) :
    m.obliging.callsSince m₂ = settledCalls (m.callsSince m₁) := by
  obtain ⟨made, hcalls, hcalls'⟩ := h.consoles.calls_eq
  rw [Machine.callsSince_eq hcalls]
  exact Machine.callsSince_eq hcalls'

theorem beside_obliging (m : Machine) : Beside (Granted m.console.calls.toList) m m.obliging := by
  refine ⟨rfl, rfl, rfl, rfl, rfl, [], ?_, ?_⟩
  · exact (List.append_nil _).symm
  · exact (List.append_nil _).symm

/-! ## The whole run -/

abbrev BesideGranted (m : Machine) : Execution → Execution → Prop :=
  ExecutionsBeside (Granted m.console.calls.toList)

theorem running_beside {p : Program} {m : Machine} {n : Nat} {e : Execution}
    (h : m.interpret n p = .running e) :
    ∃ e', m.obliging.interpret n p = .running e' ∧ BesideGranted m e e' := by
  have hstart : BesideGranted m ⟨p, m⟩ ⟨p, m.obliging⟩ := ⟨rfl, beside_obliging m⟩
  refine follow_running_of_running ?_ hstart h
  rintro ⟨todo, m₁⟩ ⟨todo', m₂⟩ next ⟨htodo, hbeside⟩ hstep
  obtain rfl : todo' = todo := htodo
  rcases stepsAlongside_or_refused hbeside.consoles todo' with ⟨halong, -⟩ | ⟨d, x, hrefused⟩
  · rw [StepsAlongside, hstep, ← hbeside.machine_eq] at halong
    exact halong.of_running
  · obtain ⟨c₁, hstop, -⟩ := hrefused.step_eq
    rw [hstep] at hstop
    contradiction

section LastStep

variable {p : Program} {m m₀ m₀' m₁ : Machine} {k : Nat} {todo : Program} {r : Except Fault Unit}
  {d : Call} {x : IoError}

theorem outputSucceeds_of_last_step (hrun : m.interpret k p = .running ⟨todo, m₀⟩)
    (hstop : Execution.step ⟨todo, m₀⟩ = .stopped (r, m₁))
    (hstep : ∀ d, (Execution.calls ⟨todo, m₀⟩).getLast? = some d → d.isOutput → d.failure? = none)
    (hd : (m.callsSince m₁).getLast? = some d) (hout : d.isOutput) : d.failure? = none := by
  rw [callsSince_last hrun hstop, List.getLast?_append] at hd
  cases hcalls : (Execution.calls ⟨todo, m₀⟩).getLast? with
  | none =>
    rw [hcalls] at hd
    exact failure?_of_running hrun d (List.mem_of_getLast? hd)
  | some d' =>
    rw [hcalls] at hd
    cases hd
    exact hstep d hcalls hout

theorem Refused.getLast?_eq (h : Refused todo m₀ m₀'.console d x)
    (hrun : m.interpret k p = .running ⟨todo, m₀⟩)
    (hstop : Execution.step ⟨todo, m₀⟩ = .stopped (r, m₁)) :
    (m.callsSince m₁).getLast? = some d := by
  rw [callsSince_last hrun hstop, List.getLast?_append, h.last_eq]
  rfl

theorem Refused.stops (h : Refused todo m₀ m₀'.console d x) (hbeside : Beside (Granted base) m₀ m₀')
    (hstop : Execution.step ⟨todo, m₀⟩ = .stopped (r, m₁)) :
    r = .error (.io x) ∧ SameState m₁ m₀' := by
  obtain ⟨c₁, hstep, hinput, houtput⟩ := h.step_eq
  rw [hstop] at hstep
  cases hstep
  have hsame := hbeside.sameState
  refine ⟨rfl, ⟨?_, ?_, ?_, ?_, ?_⟩, ?_⟩
  · exact hsame.pointer_eq
  · exact hsame.tape_eq
  · exact hsame.eof_eq
  · exact hsame.log_eq
  · exact hsame.output_eq.trans houtput.symm
  · exact hsame.input_eq.trans hinput.symm

theorem Refused.granted_calls (h : Refused todo m₀ m₀'.console d x)
    (hbeside : Beside (Granted base) m₀ m₀')
    (hrun' : m.obliging.interpret k p = .running ⟨todo, m₀'⟩) :
    ∃ later, m.obliging.callsSince (Execution.reached (m.obliging.interpret (k + 1) p)) =
      m.obliging.callsSince m₀' ++ d.granted :: later := by
  obtain ⟨later, hlater⟩ := h.granted
  refine ⟨later, ?_⟩
  rw [callsSince_succ hrun', ← hlater, ← hbeside.machine_eq]

end LastStep

/-- Failing output truncates a run and does nothing else. -/
theorem failing_output_truncates (p : Program) (m : Machine) (n : Nat) :
    (∀ e, m.interpret n p = .running e → ∃ e', m.obliging.interpret n p = .running e' ∧
      e'.todo = e.todo ∧ SameState e.machine e'.machine ∧
      m.obliging.callsSince e'.machine = settledCalls (m.callsSince e.machine)) ∧
    ∀ r m₁, m.interpret n p = .stopped (r, m₁) →
      (∀ d x, (m.callsSince m₁).getLast? = some d → d.isOutput → d.failure? = some x →
        r = .error (.io x) ∧
        ∃ k e', k < n ∧ m.obliging.interpret k p = .running e' ∧ SameState m₁ e'.machine ∧
          settledCalls (m.callsSince m₁) = m.obliging.callsSince e'.machine ++ [d] ∧
          ∃ later,
            m.obliging.callsSince (Execution.reached (m.obliging.interpret (k + 1) p)) =
              m.obliging.callsSince e'.machine ++ d.granted :: later) ∧
      ((∀ d, (m.callsSince m₁).getLast? = some d → d.isOutput → d.failure? = none) →
        ∃ m₂, m.obliging.interpret n p = .stopped (r, m₂) ∧ SameState m₁ m₂ ∧
          m.obliging.callsSince m₂ = settledCalls (m.callsSince m₁)) := by
  constructor
  · intro e h
    obtain ⟨e', he', htodo, hbeside⟩ := running_beside h
    exact ⟨e', he', htodo, hbeside.sameState, hbeside.callsSince_eq⟩
  · intro r m₁ h
    obtain ⟨k, ⟨todo, m₀⟩, hk, hrun, hstop⟩ := exists_last_step h
    obtain ⟨⟨todo', m₀'⟩, hrun', htodo, hbeside⟩ := running_beside hrun
    obtain rfl : todo' = todo := htodo
    -- The runs were together before the last step, so all depends on that step.
    rcases stepsAlongside_or_refused hbeside.consoles todo' with ⟨halong, hnot⟩ | ⟨d, x, hrefused⟩
    · constructor
      · intro d x hd hout hfail
        rw [outputSucceeds_of_last_step hrun hstop hnot hd hout] at hfail
        contradiction
      · intro _
        rw [StepsAlongside, hstop, ← hbeside.machine_eq] at halong
        obtain ⟨⟨r', m₂⟩, hstop', hend⟩ := halong.of_stopped
        obtain rfl : r' = r := hend.result_eq
        have hend' := (follow_succ_of_follow hrun').trans hstop'
        exact ⟨m₂, follow_of_stopped hend' hk, hend.beside.sameState, hend.beside.callsSince_eq⟩
    · have hlast := hrefused.getLast?_eq hrun hstop
      obtain ⟨hresult, hsame⟩ := hrefused.stops hbeside hstop
      constructor
      · intro d' x' hd _ hfail
        obtain rfl : d' = d := Option.some.inj (hd.symm.trans hlast)
        obtain rfl : x' = x := Option.some.inj (hfail.symm.trans hrefused.failure?_eq)
        refine ⟨hresult, k, ⟨todo', m₀'⟩, hk, hrun', hsame, ?_,
          hrefused.granted_calls hbeside hrun'⟩
        rw [callsSince_last hrun hstop, settledCalls_append, hrefused.settled_eq,
          ← hbeside.callsSince_eq]
      · intro hnone
        have hsucceeds := hnone d hlast hrefused.isOutput
        rw [hrefused.failure?_eq] at hsucceeds
        contradiction

end Brainfuck
