/-!
# Byte channels

What a byte channel answers to a single call. A script is a list of answers, given one per call.
Once it is used up a read finds the end, and a write or a flush succeeds.
-/

namespace Brainfuck

inductive IoErrorKind where
  | interrupted
  | brokenPipe
  | permissionDenied
  | unexpectedEof
  | wouldBlock
  | invalidData
  | writeZero
  | notFound
  | isADirectory
  | notADirectory
  | invalidFilename
  | other
deriving DecidableEq, Repr

structure IoError where
  kind : IoErrorKind
  text : String
deriving DecidableEq, Repr

namespace IoError

/-- An interrupted read or write is made again and is no failure. -/
def isInterruption (e : IoError) : Bool := e.kind == .interrupted

/-- The failure of a write that took no byte. -/
def nothingWritten : IoError := ⟨.writeZero, "failed to write whole buffer"⟩

end IoError

/-- The answer to a read of one byte. -/
inductive ReadAnswer where
  | byte (b : UInt8)
  | ended
  | failed (e : IoError)
deriving DecidableEq, Repr

def ReadAnswer.isInterruption : ReadAnswer → Bool
  | failed e => e.isInterruption
  | _ => false

/-- The answer to a write of one byte. -/
inductive WriteAnswer where
  | accepted
  | nothing
  | failed (e : IoError)
deriving DecidableEq, Repr

def WriteAnswer.isInterruption : WriteAnswer → Bool
  | failed e => e.isInterruption
  | _ => false

/-- The answer to a flush. -/
inductive FlushAnswer where
  | done
  | failed (e : IoError)
deriving DecidableEq, Repr

theorem headD_flushes {script : List FlushAnswer} (h : ∀ a ∈ script, a = .done) :
    script.headD .done = .done := by
  cases script with
  | nil => rfl
  | cons a rest => exact h a List.mem_cons_self

/-! ## Calls that are made until one is not interrupted -/

structure Settled (α : Type) where
  interruptions : List α
  /-- The first answer that is no interruption. -/
  answer : α
  /-- The answers to later calls. -/
  rest : List α

/-- Makes a call until it is not interrupted. A script that is used up answers `last`. -/
def settle {α : Type} (isInterruption : α → Bool) (last : α) (script : List α) : Settled α :=
  let settled := script.dropWhile isInterruption
  ⟨script.takeWhile isInterruption, settled.headD last, settled.tail⟩

def settleRead (script : List ReadAnswer) : Settled ReadAnswer :=
  settle ReadAnswer.isInterruption .ended script

def settleWrite (script : List WriteAnswer) : Settled WriteAnswer :=
  settle WriteAnswer.isInterruption .accepted script

section Settle

variable {α : Type} {isInterruption : α → Bool} {last : α}

theorem settle_of_interruption {a : α} (h : isInterruption a = true) (script : List α) :
    settle isInterruption last (a :: script) =
      ⟨a :: (settle isInterruption last script).interruptions,
        (settle isInterruption last script).answer, (settle isInterruption last script).rest⟩ := by
  simp [settle, h]

theorem settle_of_settled {a : α} (h : isInterruption a = false) (script : List α) :
    settle isInterruption last (a :: script) = ⟨[], a, script⟩ := by
  simp [settle, h]

end Settle

theorem isInterruption_answer_settle {α : Type} {isInterruption : α → Bool} {last : α}
    (h : isInterruption last = false) (script : List α) :
    isInterruption (settle isInterruption last script).answer = false := by
  have := List.head?_dropWhile_not isInterruption script
  simp only [settle, List.headD_eq_head?_getD]
  cases hd : (script.dropWhile isInterruption).head? with
  | none => exact h
  | some a => simpa [hd] using this

/-- The bytes that a script delivers before it ends or fails. -/
def delivered : List ReadAnswer → List UInt8
  | [] => []
  | .byte b :: script => b :: delivered script
  | .ended :: _ => []
  | .failed e :: script => if e.isInterruption then delivered script else []

/-- The bytes that come with an answer and after it. -/
def ReadAnswer.deliveredThen (rest : List ReadAnswer) : ReadAnswer → List UInt8
  | byte b => b :: delivered rest
  | ended | failed _ => []

theorem delivered_eq (script : List ReadAnswer) :
    delivered script =
      (settleRead script).answer.deliveredThen (settleRead script).rest := by
  induction script with
  | nil => rfl
  | cons a script ih =>
    cases h : a.isInterruption with
    | true =>
      rw [settleRead, settle_of_interruption h]
      refine Eq.trans ?_ ih
      cases a <;> simp_all [ReadAnswer.isInterruption, delivered]
    | false =>
      rw [settleRead, settle_of_settled h]
      cases a <;> simp_all [ReadAnswer.isInterruption, delivered, ReadAnswer.deliveredThen]

end Brainfuck
