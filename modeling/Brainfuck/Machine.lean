import Brainfuck.Console
import Brainfuck.Event
import Brainfuck.Overflow
import Brainfuck.Symbol
import Brainfuck.Tape

/-!
# The machine

A tape with a cell pointer, and a console to read from and print to. An operation answers whether
it succeeded. One that failed has changed nothing but the console.
-/

namespace Brainfuck

/-- What stops a machine. -/
inductive Fault where
  | io (e : IoError)
  | overflow (o : Overflow)
deriving DecidableEq, Repr

def Fault.message : Fault → String
  | io e => s!"IO Error: {e.text}"
  | overflow o => o.message

structure Machine where
  pointer : Int
  tape : Tape
  eof : EndOfInput
  console : Console
  log : Array Event

namespace Machine

def ofConsole (eof : EndOfInput) (console : Console) : Machine := ⟨0, .empty, eof, console, #[]⟩

/-- Goes back to the start of an empty tape. -/
def reset (m : Machine) : Machine := { m with pointer := 0, tape := .empty }

def value (m : Machine) : UInt8 := m.tape.get m.pointer

def isZero (m : Machine) : Bool := m.value == 0

def setValue (m : Machine) (v : UInt8) : Machine := { m with tape := m.tape.set m.pointer v }

@[simp] theorem value_setValue (m : Machine) (v : UInt8) : (m.setValue v).value = v := by
  simp [value, setValue, Tape.get_set]

def record (m : Machine) (e : Event) : Machine := { m with log := m.log.push e }

/-! ## Streams -/

def flush (m : Machine) : Except Fault Unit × Machine :=
  match m.console.flush with
  | (.ok (), console) => (.ok (), { m with console })
  | (.error e, console) => (.error (.io e), { m with console })

/-- Prints the current cell. -/
def write (m : Machine) : Except Fault Unit × Machine :=
  match m.console.write m.value with
  | (.ok (), console) => (.ok (), { m with console })
  | (.error e, console) => (.error (.io e), { m with console })

/-- What the end of the input does to the current cell. -/
def atEnd (m : Machine) : Machine :=
  let m := m.record (.inputExhausted m.eof m.pointer)
  match m.eof.stored? with
  | some v => m.setValue v
  | none => m

/-- Reads a byte into the current cell. What was printed is flushed before. -/
def read (m : Machine) : Except Fault Unit × Machine :=
  match m.flush with
  | (.error e, m) => (.error e, m)
  | (.ok (), m) =>
    match m.console.read with
    | (.ok (some b), console) => (.ok (), { m with console }.setValue b)
    | (.ok none, console) => (.ok (), { m with console }.atEnd)
    | (.error e, console) => (.error (.io e), { m with console })

theorem pointer_flush (m : Machine) : m.flush.2.pointer = m.pointer := by
  unfold flush
  split <;> rfl

theorem pointer_write (m : Machine) : m.write.2.pointer = m.pointer := by
  unfold write
  split <;> rfl

theorem pointer_atEnd (m : Machine) : m.atEnd.pointer = m.pointer := by
  unfold atEnd
  simp only
  split <;> rfl

theorem pointer_read (m : Machine) : m.read.2.pointer = m.pointer := by
  have hflush := m.pointer_flush
  unfold read
  split
  · simpa [*] using hflush
  · rename_i m' hm'
    rw [hm'] at hflush
    split
    · exact hflush
    · exact (pointer_atEnd _).trans hflush
    · exact hflush

/-! ## Cells and the pointer -/

/-- Cells count modulo 256. -/
def add (m : Machine) (n : Nat) : Machine := m.setValue (m.value + UInt8.ofNat n)

def sub (m : Machine) (n : Nat) : Machine := m.setValue (m.value - UInt8.ofNat n)

def shift (m : Machine) (distance : Int) : Except Fault Unit × Machine :=
  if inWord (m.pointer + distance) then (.ok (), { m with pointer := m.pointer + distance })
  else (.error (.overflow .add), m)

theorem shift_of_inWord {m : Machine} {distance : Int} (h : inWord (m.pointer + distance)) :
    m.shift distance = (.ok (), { m with pointer := m.pointer + distance }) := if_pos h

theorem shift_of_not_inWord {m : Machine} {distance : Int} (h : ¬inWord (m.pointer + distance)) :
    m.shift distance = (.error (.overflow .add), m) := if_neg h

/-- Carries out an operator with its count. The count of a shift is taken as a signed word. -/
def apply (m : Machine) (o : Operator) (count : Nat) : Except Fault Unit × Machine :=
  match o with
  | .increment => (.ok (), m.add count)
  | .decrement => (.ok (), m.sub count)
  | .shiftRight => m.shift (signedWord count)
  | .shiftLeft =>
    if inWord (-signedWord count) then m.shift (-signedWord count)
    else (.error (.overflow .negate), m)

end Machine

end Brainfuck
