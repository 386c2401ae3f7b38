import Brainfuck.Proofs.Delivery
import Brainfuck.Proofs.Simulation

/-!
# What was not read

Two runs of one program whose readers give the same results for a while. Until one of them asks for
a result in which the readers differ, the runs are the same, and what such a result would have been
cannot matter. Nor does the policy for the end of the input, as long as no end was read.
-/

namespace Brainfuck

open Progress

/-! ## Readers that agree -/

open Stream' in
/-- What a reader answers to one call after the other: its script, and ends for ever after. -/
def answersOf (script : List ReadAnswer) : Stream' ReadAnswer := script ++ₛ Stream'.const .ended

/-- The readers give the same answers up to their result number `k`, interruptions included. -/
def AgreeOn (k : Nat) (script script' : List ReadAnswer) : Prop :=
  ∃ n, (answersOf script).take n = (answersOf script').take n ∧
    k ≤ ((answersOf script).take n).countP (!·.isInterruption)

variable {k : Nat} {script script' : List ReadAnswer}

theorem tail_answersOf (script : List ReadAnswer) :
    (answersOf script).tail = answersOf script.tail := by
  cases script with
  | nil => exact Stream'.tail_const _
  | cons a script => exact congrArg Stream'.tail (Stream'.cons_append_stream ..)

theorem settleRead_of_interrupted (h : (answersOf script).head.isInterruption = true) :
    settleRead script = ⟨(answersOf script).head :: (settleRead script.tail).interruptions,
      (settleRead script.tail).answer, (settleRead script.tail).rest⟩ := by
  cases script with
  | nil => contradiction
  | cons a rest => exact settle_of_interruption h rest

theorem settleRead_of_not_interrupted (h : (answersOf script).head.isInterruption = false) :
    settleRead script = ⟨[], (answersOf script).head, script.tail⟩ := by
  cases script with
  | nil => rfl
  | cons a rest => exact settle_of_settled h rest

theorem AgreeOn.settleRead (h : AgreeOn (k + 1) script script') :
    (settleRead script').asked = (settleRead script).asked ∧
      (settleRead script').answer = (settleRead script).answer ∧
      AgreeOn k (settleRead script).rest (settleRead script').rest := by
  obtain ⟨n, htake, hcount⟩ := h
  -- Interruptions are passed by one after the other until the result is taken.
  induction n generalizing script script' with
  | zero => simp at hcount
  | succ n ih =>
    rw [Stream'.take_succ, Stream'.take_succ, tail_answersOf, tail_answersOf] at htake
    rw [Stream'.take_succ, tail_answersOf] at hcount
    obtain ⟨hhead, htake⟩ := List.cons.inj htake
    cases ha : (answersOf script).head.isInterruption with
    | true =>
      rw [List.countP_cons_of_neg (by simp [ha])] at hcount
      obtain ⟨hasked, hanswer, hagree⟩ := ih htake hcount
      rw [settleRead_of_interrupted ha, settleRead_of_interrupted (hhead ▸ ha), ← hhead]
      exact ⟨congrArg ((answersOf script).head :: ·) hasked, hanswer, hagree⟩
    | false =>
      rw [List.countP_cons_of_pos (by simp [ha])] at hcount
      rw [settleRead_of_not_interrupted ha, settleRead_of_not_interrupted (hhead ▸ ha), ← hhead]
      exact ⟨rfl, rfl, n, htake, Nat.le_of_succ_le_succ hcount⟩

/-! ## Machines -/

/-- The machines differ at most in what is still to be read and in their policies for its end. -/
structure SameSoFar (m m' : Machine) : Prop where
  pointer_eq : m'.pointer = m.pointer
  tape_eq : m'.tape = m.tape
  log_eq : m'.log = m.log
  output_eq : m'.console.output = m.console.output
  calls_eq : m'.console.calls = m.console.calls
  writes_eq : m'.console.writes = m.console.writes
  flushes_eq : m'.console.flushes = m.console.flushes

/-- The machines also agree on the next `k` results. -/
structure SameUntil (k : Nat) (m m' : Machine) : Prop extends SameSoFar m m' where
  input : AgreeOn k m.console.input m'.console.input

namespace SameUntil

variable {m m' : Machine}

theorem value_eq (h : SameUntil k m m') : m'.value = m.value := by
  rw [Machine.value, h.tape_eq, h.pointer_eq]
  rfl

theorem nextFlush_eq (h : SameUntil k m m') : m'.console.nextFlush = m.console.nextFlush := by
  rw [Console.nextFlush, h.flushes_eq]
  rfl

theorem setValue (h : SameUntil k m m') (v : UInt8) :
    SameUntil k (m.setValue v) (m'.setValue v) := by
  refine ⟨⟨h.pointer_eq, ?_, h.log_eq, h.output_eq, h.calls_eq, h.writes_eq, h.flushes_eq⟩, h.input⟩
  simp only [Machine.setValue, h.tape_eq, h.pointer_eq]

theorem record (h : SameUntil k m m') (e : Event) : SameUntil k (m.record e) (m'.record e) := by
  refine ⟨⟨h.pointer_eq, h.tape_eq, ?_, h.output_eq, h.calls_eq, h.writes_eq, h.flushes_eq⟩, h.input⟩
  simp only [Machine.record, h.log_eq]

theorem shift (h : SameUntil k m m') (d : Int) :
    (m'.shift d).1 = (m.shift d).1 ∧ SameUntil k (m.shift d).2 (m'.shift d).2 := by
  unfold Machine.shift
  rw [h.pointer_eq]
  split
  · exact ⟨rfl, ⟨rfl, h.tape_eq, h.log_eq, h.output_eq, h.calls_eq, h.writes_eq, h.flushes_eq⟩,
      h.input⟩
  · exact ⟨rfl, h⟩

theorem apply (h : SameUntil k m m') (o : Operator) (n : Nat) :
    (m'.apply o n).1 = (m.apply o n).1 ∧ SameUntil k (m.apply o n).2 (m'.apply o n).2 := by
  unfold Machine.apply Machine.add Machine.sub
  rw [h.value_eq]
  cases o with
  | increment => exact ⟨rfl, h.setValue _⟩
  | decrement => exact ⟨rfl, h.setValue _⟩
  | shiftRight => exact h.shift _
  | shiftLeft =>
    simp only
    split
    · exact h.shift _
    · exact ⟨rfl, h⟩

theorem flush (h : SameUntil k m m') :
    m'.flush.1 = m.flush.1 ∧ SameUntil k m.flush.2 m'.flush.2 := by
  rw [Machine.flush_eq, Machine.flush_eq, Console.flush_eq, Console.flush_eq, h.nextFlush_eq]
  refine ⟨rfl, ⟨h.pointer_eq, h.tape_eq, h.log_eq, h.output_eq, ?_, h.writes_eq, ?_⟩, h.input⟩
  · simp only [h.calls_eq]
  · simp only [h.flushes_eq]

theorem write (h : SameUntil k m m') :
    m'.write.1 = m.write.1 ∧ SameUntil k m.write.2 m'.write.2 := by
  rw [Machine.write_eq, Machine.write_eq, Console.write_eq, Console.write_eq, h.writes_eq,
    h.value_eq]
  refine ⟨rfl, ⟨h.pointer_eq, h.tape_eq, h.log_eq, ?_, ?_, rfl, h.flushes_eq⟩, h.input⟩
  · simp only [h.output_eq]
  · simp only [h.calls_eq]

theorem atEnd (h : SameUntil k m m') (heof : m'.eof = m.eof) : SameUntil k m.atEnd m'.atEnd := by
  have hlog := h.record (.inputExhausted m.eof m.pointer)
  have hevent : Event.inputExhausted m'.eof m'.pointer = .inputExhausted m.eof m.pointer := by
    rw [heof, h.pointer_eq]
  cases hv : m.eof.stored? with
  | none =>
    rw [Machine.atEnd_of_unstored hv, Machine.atEnd_of_unstored (heof ▸ hv), hevent]
    exact hlog
  | some v =>
    rw [Machine.atEnd_of_stored hv, Machine.atEnd_of_stored (heof ▸ hv), hevent]
    exact hlog.setValue v

theorem receive (h : SameUntil k m m') {x : Except IoError (Option UInt8)}
    (heof : m'.eof = m.eof ∨ x ≠ .ok none) : SameUntil k (m.receive x) (m'.receive x) := by
  rcases x with e | _ | b
  · exact h
  · exact h.atEnd (heof.resolve_right fun hne => hne rfl)
  · exact h.setValue b

theorem read_of_refused (h : SameUntil k m m') {x : IoError}
    (hf : m.console.nextFlush = .failed x) :
    m'.read.1 = m.read.1 ∧ SameUntil k m.read.2 m'.read.2 := by
  have hflush := h.flush
  rw [Machine.flush_eq, Machine.flush_eq] at hflush
  rw [Machine.read_of_refused hf, Machine.read_of_refused (h.nextFlush_eq.trans hf)]
  exact ⟨rfl, hflush.2⟩

theorem read_of_flushed (h : SameUntil (k + 1) m m') (hf : m.console.nextFlush = .done)
    (heof : m'.eof = m.eof ∨ (settleRead m.console.input).answer ≠ .ended) :
    m'.read.1 = m.read.1 ∧ SameUntil k m.read.2 m'.read.2 := by
  obtain ⟨hasked, hanswer, hagree⟩ := h.input.settleRead
  have hreceive : m'.eof = m.eof ∨ (settleRead m.console.input).answer.outcome ≠ .ok none := by
    refine heof.imp_right fun hne heq => hne ?_
    cases ha : (settleRead m.console.input).answer <;> simp_all [ReadAnswer.outcome]
  rw [Machine.read_of_flushed hf, Machine.read_of_flushed (h.nextFlush_eq.trans hf), hanswer]
  have hafter : SameUntil k { m with console := m.console.flush.2.read.2 }
      { m' with console := m'.console.flush.2.read.2 } := by
    simp only [Console.read_eq, Console.flush_eq]
    refine ⟨⟨h.pointer_eq, h.tape_eq, h.log_eq, h.output_eq, ?_, h.writes_eq, ?_⟩, hagree⟩
    · simp only [h.calls_eq, h.nextFlush_eq, hasked]
    · simp only [h.flushes_eq]
  exact ⟨rfl, hafter.receive hreceive⟩

end SameUntil

/-! ## One step -/

/-- A read that was answered for good, with a byte, an end or a failure. -/
def Call.isResult : Call → Bool
  | read a => !a.isInterruption
  | write .. | flush _ => false

theorem countP_isResult_reads (script : List ReadAnswer) :
    ((settleRead script).asked.map Call.read).countP Call.isResult = 1 := by
  have hints : ((settleRead script).interruptions.map Call.read).countP Call.isResult = 0 := by
    rw [List.countP_eq_zero]
    intro c hc
    obtain ⟨a, ha, rfl⟩ := List.mem_map.1 hc
    have hi : a.isInterruption = true := isInterruption_of_mem_interruptions ha
    simp [Call.isResult, hi]
  rw [Settled.asked, List.map_append, List.countP_append, hints]
  simp [Call.isResult, isInterruption_answer_settleRead]

theorem countP_isResult_writes (b : UInt8) (answers : List WriteAnswer) :
    (answers.map (Call.write b)).countP Call.isResult = 0 := by
  simp [List.countP_eq_zero, Call.isResult]

structure RunningAlike (k : Nat) (e e' : Execution) : Prop where
  todo_eq : e'.todo = e.todo
  machine : SameUntil k e.machine e'.machine

structure EndedAlike (k : Nat) (r r' : Except Fault Unit × Machine) : Prop where
  result_eq : r'.1 = r.1
  machine : SameUntil k r.2 r'.2

theorem alongside_proceed_sameUntil {x x' : Except Fault Unit × Machine} (rest : Program)
    (h : x'.1 = x.1 ∧ SameUntil k x.2 x'.2) :
    Alongside (RunningAlike k) (EndedAlike k) (Execution.proceed rest x)
      (Execution.proceed rest x') := by
  obtain ⟨r, m⟩ := x
  obtain ⟨r', m'⟩ := x'
  obtain ⟨hr, hm⟩ := h
  obtain rfl : r' = r := hr
  rcases r' with f | ⟨⟩
  · exact .stopped ⟨rfl, hm⟩
  · exact .running ⟨rfl, hm⟩

/-- A step that takes no more results than those agreed on. -/
theorem alongside_step_sameUntil {todo : Program} {m m' : Machine} (h : SameUntil k m m')
    (hread : (Execution.calls ⟨todo, m⟩).countP Call.isResult ≤ k)
    (heof : m'.eof = m.eof ∨ .read .ended ∉ Execution.calls ⟨todo, m⟩) :
    Alongside (RunningAlike (k - (Execution.calls ⟨todo, m⟩).countP Call.isResult))
      (EndedAlike (k - (Execution.calls ⟨todo, m⟩).countP Call.isResult))
      (Execution.step ⟨todo, m⟩) (Execution.step ⟨todo, m'⟩) := by
  cases todo with
  | nil =>
    obtain ⟨hresult, hm⟩ := h.flush
    exact .stopped ⟨hresult, hm⟩
  | cons s rest =>
    cases s with
    | print =>
      rw [Execution.calls, countP_isResult_writes]
      exact alongside_proceed_sameUntil rest h.write
    | input =>
      cases hf : m.console.nextFlush with
      | failed x =>
        rw [Execution.calls_input_of_refused rest hf]
        exact alongside_proceed_sameUntil rest (h.read_of_refused hf)
      | done =>
        -- The read takes one result, which both machines have as the first of theirs.
        have hcalls : Execution.calls ⟨.input :: rest, m⟩ =
            .flush .done :: (settleRead m.console.input).asked.map .read := by
          rw [Execution.calls]
          simp only [hf]
        rw [hcalls, List.countP_cons_of_neg (by decide), countP_isResult_reads] at hread ⊢
        obtain ⟨j, rfl⟩ := Nat.exists_eq_add_of_le' hread
        have hended : m'.eof = m.eof ∨ (settleRead m.console.input).answer ≠ .ended := by
          refine heof.imp_right fun hnot heq => hnot ?_
          rw [hcalls, Settled.asked, heq]
          simp
        exact alongside_proceed_sameUntil rest (h.read_of_flushed hf hended)
    | counted o n => exact alongside_proceed_sameUntil rest (h.apply o n)
    | loop body =>
      have hzero : m'.isZero = m.isZero := by rw [Machine.isZero, h.value_eq]; rfl
      unfold Execution.step
      simp only [hzero]
      split
      · exact .running ⟨rfl, h⟩
      · exact .running ⟨rfl, h⟩

/-! ## The whole run -/

theorem alongside_interpret_sameUntil (p : Program) {m m' : Machine} (h : SameUntil k m m') (n : Nat)
    (hread : (m.callsSince (Execution.reached (m.interpret n p))).countP Call.isResult ≤ k)
    (heof : m'.eof = m.eof ∨ .read .ended ∉ m.callsSince (Execution.reached (m.interpret n p))) :
    ∃ j, j + (m.callsSince (Execution.reached (m.interpret n p))).countP Call.isResult = k ∧
      Alongside (RunningAlike j) (EndedAlike j) (m.interpret n p) (m'.interpret n p) := by
  induction n with
  | zero =>
    have hnone : m.callsSince (Execution.reached (m.interpret 0 p)) = [] :=
      Machine.callsSince_eq (List.append_nil _).symm
    rw [hnone]
    exact ⟨k, rfl, .running ⟨rfl, h⟩⟩
  | succ n ih =>
    cases hrun : m.interpret n p with
    | stopped r =>
      have hstay : m.interpret (n + 1) p = .stopped r := follow_of_stopped hrun (Nat.le_succ n)
      rw [hrun] at ih
      rw [hstay] at hread heof ⊢
      obtain ⟨j, hj, halong⟩ := ih hread heof
      obtain ⟨r', hrun', hsame⟩ := halong.of_stopped
      have hstay' : m'.interpret (n + 1) p = .stopped r' := follow_of_stopped hrun' (Nat.le_succ n)
      rw [hstay']
      exact ⟨j, hj, .stopped hsame⟩
    | running e =>
      obtain ⟨todo, m₁⟩ := e
      have hbefore : m.callsSince (Execution.reached (m.interpret n p)) = m.callsSince m₁ := by
        rw [hrun]
        rfl
      have hafter : m.callsSince (Execution.reached (m.interpret (n + 1) p)) =
          m.callsSince m₁ ++ Execution.calls ⟨todo, m₁⟩ := callsSince_succ hrun
      rw [hbefore, hrun] at ih
      rw [hafter] at heof
      rw [hafter, List.countP_append] at hread ⊢
      obtain ⟨j, hj, halong⟩ := ih (by omega)
        (heof.imp_right fun hnot hmem => hnot (List.mem_append_left _ hmem))
      obtain ⟨⟨todo', m₁'⟩, hrun', htodo, hsame⟩ := halong.of_running
      obtain rfl : todo' = todo := htodo
      have heof₁ : m₁'.eof = m₁.eof ∨ .read .ended ∉ Execution.calls ⟨todo', m₁⟩ := by
        have hpolicy := (results_interpret p m n).2
        have hpolicy' := (results_interpret p m' n).2
        rw [hrun] at hpolicy
        rw [hrun'] at hpolicy'
        refine heof.imp (fun heq => hpolicy'.trans (heq.trans hpolicy.symm)) fun hnot hmem => ?_
        exact hnot (List.mem_append_right _ hmem)
      -- Of the `j` results that are left the step takes as many as it reads.
      replace hsame : SameUntil j m₁ m₁' := hsame
      have hstep := alongside_step_sameUntil hsame (by omega) heof₁
      rw [← follow_succ_of_follow hrun, ← follow_succ_of_follow hrun'] at hstep
      exact ⟨_, by omega, hstep⟩

/-! ## Asking for a result -/

/-- The next step flushes and then reads. -/
def Execution.AsksForInput (e : Execution) : Prop :=
  ∃ (a : ReadAnswer) (reads : List ReadAnswer), e.calls = .flush .done :: .read a :: reads.map .read

theorem asksForInput_of_flushed {m : Machine} (rest : Program) (h : m.console.nextFlush = .done) :
    Execution.AsksForInput ⟨.input :: rest, m⟩ := by
  rw [Execution.AsksForInput, Execution.calls]
  simp only [h]
  cases hasked : (settleRead m.console.input).asked with
  | nil => simp [Settled.asked] at hasked
  | cons a reads => exact ⟨a, reads, rfl⟩

theorem RunningAlike.calls {e e' : Execution} (h : RunningAlike k e e') :
    e'.calls = e.calls ∨ k = 0 ∧ e.AsksForInput ∧ e'.AsksForInput := by
  obtain ⟨todo, m⟩ := e
  obtain ⟨todo', m'⟩ := e'
  obtain ⟨htodo, hm⟩ := h
  obtain rfl : todo' = todo := htodo
  replace hm : SameUntil k m m' := hm
  cases todo' with
  | nil =>
    left
    simp only [Execution.calls, hm.nextFlush_eq]
  | cons s rest =>
    cases s with
    | print =>
      left
      simp only [Execution.calls, hm.writes_eq, hm.value_eq]
    | input =>
      cases hf : m.console.nextFlush with
      | failed x =>
        left
        rw [Execution.calls_input_of_refused rest hf,
          Execution.calls_input_of_refused rest (hm.nextFlush_eq.trans hf)]
      | done =>
        -- With no result left in common, the next read may find another one.
        cases k with
        | zero =>
          exact .inr ⟨rfl, asksForInput_of_flushed rest hf,
            asksForInput_of_flushed rest (hm.nextFlush_eq.trans hf)⟩
        | succ k =>
          left
          simp only [Execution.calls, hm.nextFlush_eq, hm.input.settleRead.1]
    | counted o n => exact .inl rfl
    | loop body => exact .inl rfl

/-- Input that was not read cannot matter. -/
theorem unread_input_cannot_matter (p : Program) {m m' : Machine} (h : SameUntil k m m') (n : Nat)
    (hread : (m.callsSince (Execution.reached (m.interpret n p))).countP Call.isResult ≤ k)
    (heof : m'.eof = m.eof ∨ .read .ended ∉ m.callsSince (Execution.reached (m.interpret n p))) :
    Alongside
      (fun e e' => e'.todo = e.todo ∧ SameSoFar e.machine e'.machine ∧
        (e'.calls = e.calls ∨ (m.callsSince e.machine).countP Call.isResult = k ∧
          e.AsksForInput ∧ e'.AsksForInput))
      (fun r r' => r'.1 = r.1 ∧ SameSoFar r.2 r'.2)
      (m.interpret n p) (m'.interpret n p) := by
  obtain ⟨j, hj, halong⟩ := alongside_interpret_sameUntil p h n hread heof
  cases hrun : m.interpret n p with
  | stopped r =>
    rw [hrun] at halong
    obtain ⟨r', hrun', hresult, hsame⟩ := halong.of_stopped
    rw [hrun']
    exact .stopped ⟨hresult, hsame.toSameSoFar⟩
  | running e =>
    rw [hrun] at halong hj
    obtain ⟨e', hrun', halike⟩ := halong.of_running
    rw [hrun']
    refine .running ⟨halike.todo_eq, halike.machine.toSameSoFar, halike.calls.imp_right ?_⟩
    rintro ⟨hnone, hasks⟩
    rw [hnone, Nat.zero_add] at hj
    exact ⟨hj, hasks⟩

theorem unread_input_cannot_matter_before_a_failure :
    let p : Program := [.loop [.print], .input, .loop [.print, .input, .counted .decrement 9]]
    let again := ReadAnswer.failed ⟨.interrupted, "again"⟩
    let m := Machine.ofConsole .zero (.ofScripts [again, .byte 7, .byte 9] [] [])
    let m' := Machine.ofConsole .max
      (.ofScripts [again, .byte 7, .failed ⟨.brokenPipe, "gone"⟩] [] [])
    SameUntil 1 m m' ∧
      (∃ e e', m.interpret 4 p = .running e ∧ m'.interpret 4 p = .running e' ∧
        e.machine.console.output = #[7] ∧ e.calls = [.flush .done, .read (.byte 9)] ∧
        SameSoFar e.machine e'.machine ∧ e'.AsksForInput) ∧
      ¬SameSoFar (Execution.reached (m.interpret 5 p)) (Execution.reached (m'.interpret 5 p)) := by
  intro p again m m'
  have hsame : SameUntil 1 m m' := ⟨⟨rfl, rfl, rfl, rfl, rfl, rfl, rfl⟩, 2, rfl, by decide⟩
  refine ⟨hsame, ?_, fun h => absurd h.calls_eq (by decide +kernel)⟩
  have halong := unread_input_cannot_matter p hsame 4 (by decide +kernel) (.inr (by decide +kernel))
  obtain ⟨e', hrun', -, hsofar, hcalls⟩ := halong.of_running
  refine ⟨_, e', rfl, hrun', by decide +kernel, rfl, hsofar, ?_⟩
  rcases hcalls with heq | ⟨-, -, hasks⟩
  · exact ⟨.byte 9, [], heq⟩
  · exact hasks

end Brainfuck
