import Brainfuck.Proofs.Interruptions
import Brainfuck.Proofs.OtherStreams
import Brainfuck.Proofs.Pulling

/-!
# Interruptions are invisible

A run whose reads and writes are interrupted at any places takes each step together with the run
that is not. A program source that is interrupted is read like the one that is not.
-/

namespace Brainfuck

open Progress

/-- Interruptions are put into the answers to the reads and to the writes still to be made. -/
def Machine.interrupted (m : Machine) (reads writes : List (List String)) : Machine :=
  m.withConsole { m.console with
    input := interrupt .failed .ended reads m.console.input
    writes := interrupt .failed .accepted writes m.console.writes }

/-! ## One call -/

/-- The calls of `made`, made by the second console with the interruptions in their gaps. The other
gaps are still to come. -/
structure Interspersed (reads writes : List (List String)) (base made : List Call)
    (c c' : Console) : Prop where
  input_eq : c'.input = interrupt .failed .ended (reads.drop (made.countP Call.isRead)) c.input
  writes_eq :
    c'.writes = interrupt .failed .accepted (writes.drop (made.countP Call.isWrite)) c.writes
  flushes_eq : c'.flushes = c.flushes
  output_eq : c'.output = c.output
  calls_eq : c.calls.toList = base ++ made
  interruptedCalls_eq : c'.calls.toList = base ++ interruptCalls reads writes made

/-- Some calls have been made, and met their interruptions. -/
def SomeInterspersed (reads writes : List (List String)) (base : List Call) (c c' : Console) :
    Prop :=
  ∃ made, Interspersed reads writes base made c c'

variable {reads writes : List (List String)} {base made : List Call} {c c' : Console}

theorem Interspersed.flush (h : Interspersed reads writes base made c c') :
    CalledAlike (SomeInterspersed reads writes base) c.flush c'.flush := by
  have hnext : c'.nextFlush = c.nextFlush := by rw [Console.nextFlush, h.flushes_eq]; rfl
  rw [Console.flush_eq, Console.flush_eq, hnext]
  refine ⟨rfl, made ++ [.flush c.nextFlush], ?_, ?_, ?_, h.output_eq, ?_, ?_⟩
  · simp [h.input_eq, Call.isRead]
  · simp [h.writes_eq, Call.isWrite]
  · rw [h.flushes_eq]
  · simp [h.calls_eq]
  · rw [interruptCalls_append]
    simp [h.interruptedCalls_eq, interruptCalls]

theorem Interspersed.read (h : Interspersed reads writes base made c c') :
    CalledAlike (SomeInterspersed reads writes base) c.read c'.read := by
  have hdelayed := delayed_settleRead (reads.drop (made.countP Call.isRead)) c.input
  rw [Console.read_eq, Console.read_eq, h.input_eq, hdelayed.answer_eq]
  refine ⟨rfl, made ++ (settleRead c.input).asked.map .read, ?_, ?_, h.flushes_eq, h.output_eq,
    ?_, ?_⟩
  · simp [hdelayed.rest_eq, Function.comp_def, Call.isRead]
  · simp [h.writes_eq, Function.comp_def, Call.isWrite]
  · simp [h.calls_eq]
  · rw [interruptCalls_append, interruptCalls_reads]
    simp [h.interruptedCalls_eq, hdelayed.asked_eq]

theorem Interspersed.write (h : Interspersed reads writes base made c c') (b : UInt8) :
    CalledAlike (SomeInterspersed reads writes base) (c.write b) (c'.write b) := by
  have hdelayed := delayed_settleWrite (writes.drop (made.countP Call.isWrite)) c.writes
  rw [Console.write_eq, Console.write_eq, h.writes_eq, hdelayed.answer_eq, h.output_eq]
  refine ⟨rfl, made ++ (settleWrite c.writes).asked.map (.write b), ?_, ?_, h.flushes_eq, rfl,
    ?_, ?_⟩
  · simp [h.input_eq, Function.comp_def, Call.isRead]
  · simp [hdelayed.rest_eq, Function.comp_def, Call.isWrite]
  · simp [h.calls_eq]
  · rw [interruptCalls_append, interruptCalls_writes]
    simp [h.interruptedCalls_eq, hdelayed.asked_eq]

/-! ## One step -/

theorem stepsAlongside_of_interspersed {m : Machine}
    (h : SomeInterspersed reads writes base m.console c) (todo : Program) :
    StepsAlongside (SomeInterspersed reads writes base) todo m c := by
  obtain ⟨made, h⟩ := h
  cases todo with
  | nil => exact stepsAlongside_end h.flush
  | cons s rest =>
    cases s with
    | print => exact stepsAlongside_print (h.write m.value)
    | input =>
      refine stepsAlongside_input h.flush fun _ => ?_
      obtain ⟨made', hflushed⟩ := h.flush.consoles
      exact hflushed.read
    | counted o n => exact stepsAlongside_counted ⟨made, h⟩ o n
    | loop body => exact stepsAlongside_loop ⟨made, h⟩ body

/-! ## The whole run -/

abbrev BesideInterrupted (m : Machine) (reads writes : List (List String)) :
    Console → Console → Prop :=
  SomeInterspersed reads writes m.console.calls.toList

theorem beside_interrupted (m : Machine) (reads writes : List (List String)) :
    Beside (BesideInterrupted m reads writes) m (m.interrupted reads writes) := by
  refine ⟨rfl, [], rfl, rfl, rfl, rfl, ?_, ?_⟩
  · exact (List.append_nil _).symm
  · exact (List.append_nil _).symm

theorem alongside_interrupted (p : Program) (m : Machine) (reads writes : List (List String))
    (n : Nat) :
    Alongside (ExecutionsBeside (BesideInterrupted m reads writes))
      (EndsBeside (BesideInterrupted m reads writes))
      (m.interpret n p) ((m.interrupted reads writes).interpret n p) :=
  alongside_interpret stepsAlongside_of_interspersed (beside_interrupted m reads writes) p n

section Effect

variable {m m₁ m₂ : Machine}

theorem Beside.sameEffect_of_interspersed (h : Beside (SomeInterspersed reads writes base) m₁ m₂) :
    SameEffect m₁ m₂ := by
  obtain ⟨made, hmade⟩ := h.consoles
  exact h.sameEffect hmade.output_eq

theorem Beside.interruptedCalls_eq (h : Beside (BesideInterrupted m reads writes) m₁ m₂) :
    (m.interrupted reads writes).callsSince m₂ =
      interruptCalls reads writes (m.callsSince m₁) := by
  obtain ⟨made, hmade⟩ := h.consoles
  rw [Machine.callsSince_eq hmade.calls_eq]
  exact Machine.callsSince_eq hmade.interruptedCalls_eq

end Effect

/-! ## Program sources -/

theorem delivered_interrupted_append (texts : List String) (script : List ReadAnswer) :
    delivered (interrupted .failed texts ++ script) = delivered script := by
  induction texts with
  | nil => rfl
  | cons text texts ih => exact ih

theorem delivered_interrupt (gaps : List (List String)) (script : List ReadAnswer) :
    delivered (interrupt .failed .ended gaps script) = delivered script := by
  induction script generalizing gaps with
  | nil =>
    rcases gaps with _ | ⟨gap, _ | ⟨next, gaps⟩⟩
    · rfl
    · have hgap := delivered_interrupted_append gap []
      rwa [List.append_nil] at hgap
    · rw [interrupt_nil, delivered_interrupted_append]
      rfl
  | cons a script ih =>
    rw [interrupt_cons, delivered_interrupted_append]
    cases a <;> simp [delivered, ih]

namespace ByteSource

/-- The sources differ in the interruptions still to come. -/
structure Interspersed (s s' : ByteSource) : Prop where
  script_eq : ∃ gaps, s'.script = interrupt .failed .ended gaps s.script
  exhausted_eq : s'.exhausted = s.exhausted
  failure_eq : s'.failure = s.failure

theorem Interspersed.supply {s s' : ByteSource} (h : s.Interspersed s') :
    s.supply.2.Interspersed s'.supply.2 := by
  obtain ⟨gaps, hscript⟩ := h.script_eq
  have hdelayed := delayed_settleRead gaps s.script
  unfold ByteSource.supply
  rw [h.exhausted_eq]
  split
  · exact h
  · simp only [hscript, hdelayed.answer_eq]
    split
    · exact ⟨⟨_, hdelayed.rest_eq⟩, rfl, h.failure_eq⟩
    · exact ⟨⟨_, hdelayed.rest_eq⟩, rfl, h.failure_eq⟩
    · exact ⟨⟨_, hdelayed.rest_eq⟩, rfl, rfl⟩

theorem interspersed_after (gaps : List (List String)) (script : List ReadAnswer) (k : Nat) :
    (Source.after (ofScript script) k).Interspersed
      (Source.after (ofScript (interrupt .failed .ended gaps script)) k) := by
  induction k with
  | zero => exact ⟨⟨gaps, rfl⟩, rfl, rfl⟩
  | succ k ih => exact ih.supply

end ByteSource

theorem alike_interrupt (gaps : List (List String)) (script : List ReadAnswer) :
    (TokenStream.ofSource (ByteSource.ofScript (interrupt .failed .ended gaps script))).Alike
      (TokenStream.ofSource (ByteSource.ofScript script)) := by
  refine ⟨⟨?_, rfl, rfl⟩, rfl⟩
  exact congrArg (List.map Char.ofUInt8) (delivered_interrupt gaps script)

/-- Interruptions of reads and writes are invisible. -/
theorem interruptions_are_invisible (reads writes : List (List String)) :
    (∀ (p : Program) (m : Machine) (n : Nat),
      (∀ e, m.interpret n p = .running e →
        ∃ e', (m.interrupted reads writes).interpret n p = .running e' ∧ e'.todo = e.todo ∧
          SameEffect e.machine e'.machine ∧
          (m.interrupted reads writes).callsSince e'.machine =
            interruptCalls reads writes (m.callsSince e.machine)) ∧
      ∀ r m₁, m.interpret n p = .stopped (r, m₁) →
        ∃ m₂, (m.interrupted reads writes).interpret n p = .stopped (r, m₂) ∧
          SameEffect m₁ m₂ ∧
          (m.interrupted reads writes).callsSince m₂ =
            interruptCalls reads writes (m.callsSince m₁)) ∧
    ∀ (script : List ReadAnswer) (requests : List ReaderRequest),
      trace TokenStream.answerReader (fun ts => (ts.supplied, ts.lexer.source.failure))
          (.ofSource (ByteSource.ofScript (interrupt .failed .ended reads script))) requests =
        trace TokenStream.answerReader (fun ts => (ts.supplied, ts.lexer.source.failure))
          (.ofSource (ByteSource.ofScript script)) requests := by
  constructor
  · intro p m n
    have halong := alongside_interrupted p m reads writes n
    constructor
    · intro e h
      rw [h] at halong
      obtain ⟨e', he', htodo, hbeside⟩ := halong.of_running
      exact ⟨e', he', htodo, hbeside.sameEffect_of_interspersed, hbeside.interruptedCalls_eq⟩
    · intro r m₁ h
      rw [h] at halong
      obtain ⟨⟨r', m₂⟩, he', hresult, hbeside⟩ := halong.of_stopped
      obtain rfl : r' = r := hresult
      exact ⟨m₂, he', hbeside.sameEffect_of_interspersed, hbeside.interruptedCalls_eq⟩
  · intro script requests
    have hfailure : ∀ k, (Source.after (ByteSource.ofScript
        (interrupt .failed .ended reads script)) k).failure =
        (Source.after (ByteSource.ofScript script) k).failure :=
      fun k => (ByteSource.interspersed_after reads script k).failure_eq
    exact trace_eq_of_after (alike_interrupt reads script) hfailure requests

end Brainfuck
