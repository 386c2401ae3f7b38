import Brainfuck.Proofs.Calls

/-!
# Interruptions

Scripts with interruptions put in, at any places and behind their end. A call that is made until it
is not interrupted comes to the same, and is made once more for each interruption that it meets.
-/

namespace Brainfuck

section Scripts

variable {α : Type} (failed : IoError → α) (last : α)

/-- Interruptions, one for each text. -/
def interrupted (texts : List String) : List α := texts.map fun text => failed ⟨.interrupted, text⟩

/-- Interruptions before each answer: those of the first gap before the first one, and so on. -/
def spread : List (List String) → List α → List α
  | _, [] => []
  | gaps, a :: answers => interrupted failed (gaps.headD []) ++ a :: spread gaps.tail answers

/-- What gaps put behind a script that is used up. Between two of them it answers `last`. -/
def spreadBehind : List (List String) → List α
  | [] => []
  | [gap] => interrupted failed gap
  | gap :: next :: gaps => interrupted failed gap ++ last :: spreadBehind (next :: gaps)

def interrupt (gaps : List (List String)) (script : List α) : List α :=
  spread failed gaps script ++ spreadBehind failed last (gaps.drop script.length)

theorem interrupt_cons (gaps : List (List String)) (a : α) (script : List α) :
    interrupt failed last gaps (a :: script) =
      interrupted failed (gaps.headD []) ++ a :: interrupt failed last gaps.tail script := by
  simp [interrupt, spread]

theorem interrupt_nil (gap next : List String) (gaps : List (List String)) :
    interrupt failed last (gap :: next :: gaps) [] =
      interrupted failed gap ++ last :: interrupt failed last (next :: gaps) [] := rfl

example : interrupt ReadAnswer.failed .ended [["a"], [], ["b"]] [.byte 7] =
    [.failed ⟨.interrupted, "a"⟩, .byte 7, .ended, .failed ⟨.interrupted, "b"⟩] := by decide

end Scripts

/-! ## Settled calls -/

section Settle

variable {α : Type} {isInterruption : α → Bool} {failed : IoError → α} {last : α}

theorem settle_append {l : List α} (h : ∀ a ∈ l, isInterruption a = true) (script : List α) :
    settle isInterruption last (l ++ script) =
      { settle isInterruption last script with
        interruptions := l ++ (settle isInterruption last script).interruptions } := by
  unfold settle
  rw [List.takeWhile_append_of_pos h, List.dropWhile_append_of_pos h]

theorem isInterruption_of_mem_interrupted
    (hfailed : ∀ text, isInterruption (failed ⟨.interrupted, text⟩) = true)
    {texts : List String} {a : α} (h : a ∈ interrupted failed texts) : isInterruption a = true := by
  obtain ⟨text, -, rfl⟩ := List.mem_map.1 h
  exact hfailed text

/-- The second call comes to the same as the first, but meets the interruptions in the gaps. -/
structure Delayed (failed : IoError → α) (last : α) (gaps : List (List String))
    (s s' : Settled α) : Prop where
  answer_eq : s'.answer = s.answer
  asked_eq : s'.asked = spread failed gaps s.asked
  rest_eq : s'.rest = interrupt failed last (gaps.drop s.asked.length) s.rest

variable {gaps : List (List String)} {s s' : Settled α}

theorem delayed_of_settled (hfailed : ∀ text, isInterruption (failed ⟨.interrupted, text⟩) = true)
    {a : α} (ha : isInterruption a = false) (gaps : List (List String)) (script : List α) :
    Delayed failed last gaps ⟨[], a, script⟩
      (settle isInterruption last
        (interrupted failed (gaps.headD []) ++ a :: interrupt failed last gaps.tail script)) := by
  rw [settle_append fun _ => isInterruption_of_mem_interrupted hfailed, settle_of_settled ha]
  refine ⟨rfl, ?_, ?_⟩
  · simp [Settled.asked, spread]
  · simp [Settled.asked]

theorem Delayed.cons (hfailed : ∀ text, isInterruption (failed ⟨.interrupted, text⟩) = true)
    {a : α} (ha : isInterruption a = true) {script script' : List α}
    (h : Delayed failed last gaps.tail (settle isInterruption last script)
      (settle isInterruption last script')) :
    Delayed failed last gaps (settle isInterruption last (a :: script))
      (settle isInterruption last (interrupted failed (gaps.headD []) ++ a :: script')) := by
  have hall : ∀ b ∈ interrupted failed (gaps.headD []) ++ [a], isInterruption b = true := by
    intro b hb
    rcases List.mem_append.1 hb with hb | hb
    · exact isInterruption_of_mem_interrupted hfailed hb
    · rwa [List.mem_singleton.1 hb]
  have hone : ∀ b ∈ [a], isInterruption b = true := by simpa using ha
  rw [List.append_cons, settle_append hall, ← List.singleton_append, settle_append hone]
  refine ⟨h.answer_eq, ?_, ?_⟩
  · have hasked := h.asked_eq
    unfold Settled.asked at hasked ⊢
    simp only [List.append_assoc, hasked]
    rfl
  · rw [h.rest_eq]
    simp [Settled.asked]

theorem delayed_interrupt (hfailed : ∀ text, isInterruption (failed ⟨.interrupted, text⟩) = true)
    (hlast : isInterruption last = false) (gaps : List (List String)) (script : List α) :
    Delayed failed last gaps (settle isInterruption last script)
      (settle isInterruption last (interrupt failed last gaps script)) := by
  induction script generalizing gaps with
  | nil =>
    rcases gaps with _ | ⟨gap, _ | ⟨next, gaps⟩⟩
    · exact ⟨rfl, rfl, rfl⟩
    · -- Nothing follows the last gap, which is the same to a call as `last`.
      have hint : ∀ b ∈ interrupted failed gap, isInterruption b = true :=
        fun _ => isInterruption_of_mem_interrupted hfailed
      have hsame : settle isInterruption last (interrupted failed gap ++ []) =
          settle isInterruption last (interrupted failed gap ++ [last]) := by
        rw [settle_append hint, settle_append hint, settle_of_settled hlast]
        rfl
      have hdelayed : Delayed failed last [gap] ⟨[], last, []⟩
          (settle isInterruption last (interrupted failed gap ++ [last])) :=
        delayed_of_settled hfailed hlast [gap] []
      rw [← hsame, List.append_nil] at hdelayed
      exact hdelayed
    · exact delayed_of_settled hfailed hlast (gap :: next :: gaps) []
  | cons a script ih =>
    rw [interrupt_cons]
    -- An interruption in the script takes the call on to the next gap.
    cases ha : isInterruption a with
    | true => exact (ih gaps.tail).cons hfailed ha
    | false =>
      rw [settle_of_settled ha]
      exact delayed_of_settled hfailed ha gaps script

end Settle

theorem delayed_settleRead (gaps : List (List String)) (script : List ReadAnswer) :
    Delayed .failed .ended gaps (settleRead script)
      (settleRead (interrupt .failed .ended gaps script)) :=
  delayed_interrupt (fun _ => rfl) rfl gaps script

theorem delayed_settleWrite (gaps : List (List String)) (script : List WriteAnswer) :
    Delayed .failed .accepted gaps (settleWrite script)
      (settleWrite (interrupt .failed .accepted gaps script)) :=
  delayed_interrupt (fun _ => rfl) rfl gaps script

/-! ## Calls -/

namespace Call

def isRead : Call → Bool
  | read _ => true
  | write .. | flush _ => false

def isWrite : Call → Bool
  | write .. => true
  | read _ | flush _ => false

end Call

/-- Calls with an interrupted one before them for each interruption in the gap of a read or of a
write. -/
def interruptCalls : (reads writes : List (List String)) → List Call → List Call
  | _, _, [] => []
  | reads, writes, .read a :: calls =>
    (interrupted .failed (reads.headD [])).map .read ++
      .read a :: interruptCalls reads.tail writes calls
  | reads, writes, .write b a :: calls =>
    (interrupted .failed (writes.headD [])).map (.write b) ++
      .write b a :: interruptCalls reads writes.tail calls
  | reads, writes, .flush a :: calls => .flush a :: interruptCalls reads writes calls

theorem interruptCalls_append (reads writes : List (List String)) (k l : List Call) :
    interruptCalls reads writes (k ++ l) =
      interruptCalls reads writes k ++
        interruptCalls (reads.drop (k.countP Call.isRead)) (writes.drop (k.countP Call.isWrite))
          l := by
  induction k generalizing reads writes with
  | nil => rfl
  | cons c k ih =>
    cases c <;> simp [interruptCalls, ih, List.countP_cons, Call.isRead, Call.isWrite]

theorem interruptCalls_reads (reads writes : List (List String)) (answers : List ReadAnswer) :
    interruptCalls reads writes (answers.map .read) =
      (spread .failed reads answers).map .read := by
  induction answers generalizing reads with
  | nil => rfl
  | cons a answers ih => simp [interruptCalls, spread, ih]

theorem interruptCalls_writes (reads writes : List (List String)) (b : UInt8)
    (answers : List WriteAnswer) :
    interruptCalls reads writes (answers.map (.write b)) =
      (spread .failed writes answers).map (.write b) := by
  induction answers generalizing writes with
  | nil => rfl
  | cons a answers ih => simp [interruptCalls, spread, ih]

end Brainfuck
