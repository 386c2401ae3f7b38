import Brainfuck.Source

/-!
# Bytes from a channel

A source over a byte channel. Each byte is the character of the same number, so the text of the
source is not decoded. The first end or failure ends the source: it makes no further read, and a
failure is kept until it is taken.
-/

namespace Brainfuck

structure ByteSource where
  /-- The answers of the channel that have not been asked for yet. -/
  script : List ReadAnswer
  position : Nat
  /-- The number of read calls made so far. -/
  reads : Nat
  exhausted : Bool
  failure : Option IoError
deriving DecidableEq, Repr

namespace ByteSource

def ofScript (script : List ReadAnswer) : ByteSource := ⟨script, 0, 0, false, none⟩

/-- Interrupted reads are made again. -/
def supply (s : ByteSource) : Supply × ByteSource :=
  if s.exhausted then (.ended, s)
  else
    let settled := settleRead s.script
    let read := { s with
      script := settled.rest, reads := s.reads + settled.interruptions.length + 1 }
    match settled.answer with
    | .byte b => (.char (Char.ofUInt8 b), { read with position := s.position + 1 })
    | .ended => (.ended, { read with exhausted := true })
    | .failed e => (.failed e, { read with exhausted := true, failure := some e })

/-- The kept failure, which the source then forgets. -/
def takeFailure (s : ByteSource) : Option IoError × ByteSource :=
  (s.failure, { s with failure := none })

def rest (s : ByteSource) : List Char :=
  if s.exhausted then [] else (delivered s.script).map Char.ofUInt8

theorem rest_eq (s : ByteSource) (h : s.exhausted = false) :
    s.rest = ((settleRead s.script).answer.deliveredThen (settleRead s.script).rest).map
      Char.ofUInt8 := by
  rw [← delivered_eq, rest, if_neg (by simp [h])]

theorem rest_of_char {s : ByteSource} {c : Char} (h : s.supply.1.char? = some c) :
    s.rest = c :: s.supply.2.rest := by
  unfold supply at h ⊢
  split at h
  · simp [Supply.char?] at h
  · rename_i hs
    rw [Bool.not_eq_true] at hs
    rw [if_neg (by simp [hs]), rest_eq s hs]
    simp only at h ⊢
    split at h <;> simp_all [Supply.char?, rest, ReadAnswer.deliveredThen]

theorem rest_of_end {s : ByteSource} (h : s.supply.1.char? = none) : s.rest = [] := by
  unfold supply at h
  split at h
  · simp [rest, *]
  · rename_i hs
    rw [Bool.not_eq_true] at hs
    rw [rest_eq s hs]
    simp only at h
    split at h <;> simp_all [Supply.char?, ReadAnswer.deliveredThen]

theorem exhausted_of_end {s : ByteSource} (h : s.supply.1.char? = none) :
    s.supply.2.exhausted = true := by
  unfold supply at h ⊢
  split at h
  · simp [*]
  · rename_i hs
    rw [if_neg hs]
    simp only at h ⊢
    split at h <;> simp_all [Supply.char?]

theorem position_supply (s : ByteSource) :
    s.supply.2.position = s.position + if s.supply.1.char?.isSome then 1 else 0 := by
  unfold supply
  split
  · rfl
  · cases h : (settleRead s.script).answer <;> simp [h, Supply.char?]

instance : Source ByteSource where
  supply := supply
  position := position
  rest := rest
  rest_of_char := rest_of_char
  rest_of_end := rest_of_end
  rest_after_end h := by simp [rest, exhausted_of_end h]
  position_of_char h := by simp [position_supply, h]
  position_of_end h := by simp [position_supply, h]

end ByteSource

end Brainfuck
