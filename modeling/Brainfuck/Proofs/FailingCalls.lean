import Brainfuck.Proofs.CallOrder
import Brainfuck.Proofs.OtherStreams

/-!
# Failing calls

A run has no failures of its own but overflow. It fails with the first call that fails for good, and
makes no other call and no other change after it.
-/

namespace Brainfuck

open Progress

theorem IoError.isInterruption_iff {x : IoError} :
    x.isInterruption = true ↔ x.kind = .interrupted := beq_iff_eq

namespace Call

open IoError

/-- The call has failed for good. A read or a write that was interrupted is only made again, but a
flush is not. -/
inductive FailsWith : Call → IoError → Prop
  | read {x : IoError} : x.kind ≠ .interrupted → FailsWith (.read (.failed x)) x
  | write {b : UInt8} {x : IoError} : x.kind ≠ .interrupted → FailsWith (.write b (.failed x)) x
  /-- The writer took no byte. -/
  | nothing {b : UInt8} :
      FailsWith (.write b .nothing) ⟨.writeZero, "failed to write whole buffer"⟩
  | flush {x : IoError} : FailsWith (.flush (.failed x)) x

/-- The call has succeeded, or is made again. -/
inductive Passes : Call → Prop
  | byte {b : UInt8} : Passes (.read (.byte b))
  | ended : Passes (.read .ended)
  | accepted {b : UInt8} : Passes (.write b .accepted)
  | flushed : Passes (.flush .done)
  | interruptedRead {x : IoError} : x.kind = .interrupted → Passes (.read (.failed x))
  | interruptedWrite {b : UInt8} {x : IoError} : x.kind = .interrupted →
      Passes (.write b (.failed x))

theorem failsWith_iff {c : Call} {x : IoError} : c.FailsWith x ↔ c.failure? = some x := by
  constructor
  · intro h
    cases h with
    | read hx => exact if_neg (mt isInterruption_iff.1 hx)
    | write hx => exact if_neg (mt isInterruption_iff.1 hx)
    | nothing => rfl
    | flush => rfl
  · intro h
    rcases c with (b | _ | y) | ⟨b, _ | _ | y⟩ | _ | y
    case read.failed =>
      obtain ⟨hy, hx⟩ := Option.ite_none_left_eq_some.1 h
      cases hx
      exact .read (mt isInterruption_iff.2 hy)
    case write.failed =>
      obtain ⟨hy, hx⟩ := Option.ite_none_left_eq_some.1 h
      cases hx
      exact .write (mt isInterruption_iff.2 hy)
    case write.nothing =>
      cases h
      exact .nothing
    case flush.failed =>
      cases h
      exact .flush
    all_goals contradiction

theorem passes_of_failure?_eq_none {c : Call} (h : c.failure? = none) : c.Passes := by
  rcases c with (b | _ | y) | ⟨b, _ | _ | y⟩ | _ | y
  case read.byte => exact .byte
  case read.ended => exact .ended
  case write.accepted => exact .accepted
  case flush.done => exact .flushed
  case read.failed =>
    exact .interruptedRead (isInterruption_iff.1 (by simpa [failure?] using h))
  case write.failed =>
    exact .interruptedWrite (isInterruption_iff.1 (by simpa [failure?] using h))
  all_goals contradiction

end Call

/-! ## The last step -/

namespace Execution

variable {e : Execution} {m : Machine} {x : IoError} {r : Except Fault Unit}

theorem machine_of_step_io (h : e.step = .stopped (.error (.io x), m)) :
    m = e.machine.withConsole m.console := by
  rcases stopped_cases h with ⟨-, hflush⟩ | ⟨_, _, -, -, hwrite⟩ | ⟨_, _, -, -, hread⟩ |
    ⟨o, n, _, -, -, happly⟩
  · rw [Machine.flush_eq] at hflush
    obtain rfl := congrArg Prod.snd hflush
    rfl
  · rw [Machine.write_eq] at hwrite
    obtain rfl := congrArg Prod.snd hwrite
    rfl
  · cases hf : e.machine.console.nextFlush with
    | done =>
      rw [Machine.read_of_flushed hf] at hread
      cases ha : (settleRead e.machine.console.input).answer with
      | failed y =>
        rw [ha] at hread
        obtain rfl := congrArg Prod.snd hread
        rfl
      | byte b =>
        rw [ha] at hread
        cases hread
      | ended =>
        rw [ha] at hread
        cases hread
    | failed y =>
      rw [Machine.read_of_refused hf] at hread
      obtain rfl := congrArg Prod.snd hread
      rfl
  · -- A change of the machine fails with an overflow if at all.
    rcases e.machine.apply_fst o n with hok | ⟨v, hv⟩
    · rw [happly] at hok
      contradiction
    · rw [happly] at hv
      cases hv

theorem exists_last_call (h : e.step = .stopped (r, m)) (hr : ∀ o, r ≠ .error (.overflow o)) :
    ∃ before last, e.calls = before ++ [last] := by
  rcases r with (x | o) | ⟨⟩
  · have hlast := streamFailure?_step e
    rw [h] at hlast
    obtain ⟨last, hcall, -⟩ := Option.bind_eq_some_iff.1 hlast.symm
    obtain ⟨before, hcalls⟩ := List.getLast?_eq_some_iff.1 hcall
    exact ⟨before, last, hcalls⟩
  · exact absurd rfl (hr o)
  · exact ⟨[], _, calls_of_step_ok h⟩

end Execution

/-! ## The whole run -/

/-- A run fails exactly if its last call has failed for good. -/
theorem fails_with_last_call (p : Program) (m m₁ : Machine) (n : Nat) (r : Except Fault Unit)
    (h : m.interpret n p = .stopped (r, m₁)) (hr : ∀ o, r ≠ .error (.overflow o)) :
    ∃ k e before last, m.interpret k p = .running e ∧ e.step = .stopped (r, m₁) ∧
      e.calls = before ++ [last] ∧
      m.callsSince m₁ = (m.callsSince e.machine ++ before) ++ [last] ∧
      (∀ c ∈ m.callsSince e.machine ++ before, c.Passes) ∧
      (∀ x, r = .error (.io x) ↔ last.FailsWith x) ∧
      ∀ x, r = .error (.io x) → m₁ = e.machine.withConsole m₁.console := by
  obtain ⟨k, e, -, hrun, hstop⟩ := exists_last_step h
  obtain ⟨before, last, hcalls⟩ := Execution.exists_last_call hstop hr
  refine ⟨k, e, before, last, hrun, hstop, hcalls, ?_, ?_, ?_, ?_⟩
  · rw [callsSince_last hrun hstop, hcalls, List.append_assoc]
  · intro c hc
    refine Call.passes_of_failure?_eq_none ?_
    rcases List.mem_append.1 hc with hc | hc
    · exact failure?_of_running hrun c hc
    · refine Execution.failure?_of_mem_dropLast (e := e) ?_
      rwa [hcalls, List.dropLast_concat]
  · intro x
    have hfail := Execution.streamFailure?_step e
    rw [hstop, hcalls, List.getLast?_concat] at hfail
    rw [Call.failsWith_iff, ← Option.bind_some (f := Call.failure?), ← hfail]
    constructor
    · rintro rfl
      rfl
    · intro hx
      rcases r with (y | o) | ⟨⟩
      · rw [Option.some.inj hx]
      · exact absurd rfl (hr o)
      · contradiction
  · rintro x rfl
    exact Execution.machine_of_step_io hstop

theorem fails_with_last_call_in_nested_loops :
    let gone : IoError := ⟨.brokenPipe, "gone"⟩
    let p : Program := [.counted .increment 1, .loop [.print, .loop [.input]]]
    let m := Machine.ofConsole .zero
      (.ofScripts [.byte 2, .failed ⟨.interrupted, "again"⟩, .failed gone] [] [])
    let m₁ := Execution.reached (m.interpret 8 p)
    m.interpret 8 p = .stopped (.error (.io gone), m₁) ∧
      (∀ o, Except.error (Fault.io gone) ≠ (.error (.overflow o) : Except Fault Unit)) ∧
      ∃ k e before last, m.interpret k p = .running e ∧ e.calls = before ++ [last] ∧
        last.FailsWith gone ∧ (∀ c ∈ m.callsSince e.machine ++ before, c.Passes) ∧
        m₁ = e.machine.withConsole m₁.console := by
  intro gone p m m₁
  have hend : m.interpret 8 p = .stopped (.error (.io gone), m₁) := rfl
  have hfault : ∀ o, Except.error (Fault.io gone) ≠ (.error (.overflow o) : Except Fault Unit) := by
    simp
  obtain ⟨k, e, before, last, hrun, -, hcalls, -, hpasses, hfails, hsame⟩ :=
    fails_with_last_call p m m₁ 8 _ hend hfault
  exact ⟨hend, hfault, k, e, before, last, hrun, hcalls, (hfails gone).1 rfl, hpasses,
    hsame gone rfl⟩

end Brainfuck
