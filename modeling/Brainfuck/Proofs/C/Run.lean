import Brainfuck.Overflow
import Brainfuck.Progress
import Brainfuck.Proofs.C.Syntax

/-!
# Running a little C

What the statements mean on an array of unsigned bytes and a signed index of 64 bits. Sums are taken
in 64 bits, those of a cell as well, and a store into the array keeps the last 8 of them. A run stops
at an index outside the array and at a sum that leaves the 64 bits. An `int` of 32 bits overflows
sooner, where a count just below `2 ^ 31` is added to a cell. That is not modelled.
-/

namespace Brainfuck.C

def Sign.exact : Sign → Int → Nat → Int
  | .plus, x, n => x + n
  | .minus, x, n => x - n

/-- The sum in 64 bits, if it stays in them. -/
def Sign.sum? (sign : Sign) (x : Int) (n : Nat) : Option Int :=
  if inWord n ∧ inWord (sign.exact x n) then some (sign.exact x n) else none

structure State where
  memory : Array UInt8
  current : Int
  input : List UInt8
  output : Array UInt8

namespace State

def start (memorySize : Nat) (input : List UInt8) : State :=
  ⟨Array.replicate memorySize 0, 0, input, #[]⟩

/-- `memory[i]`, if there is such an element. -/
def element? (s : State) (i : Int) : Option UInt8 :=
  if 0 ≤ i then s.memory[i.toNat]? else none

/-- `memory[current] = v`. A store reduces the value modulo 256. -/
def store (s : State) (v : Int) : Option State :=
  if 0 ≤ s.current ∧ s.current < s.memory.size then
    some { s with memory := s.memory.setIfInBounds s.current.toNat (UInt8.ofInt v) }
  else none

/-- `putchar(memory[current])`. -/
def putchar (s : State) : Option State :=
  (s.element? s.current).map fun v => { s with output := s.output.push v }

/-- `memory[current] = getchar()`. At the end of the input `getchar` yields -1. -/
def getchar (s : State) : Option State :=
  match s.input with
  | [] => s.store (-1)
  | b :: input => { s with input }.store b.toNat

def change (s : State) (target : Target) (sign : Sign) (n : Nat) : Option State :=
  match target with
  | .current => (Sign.sum? sign s.current n).map fun i => { s with current := i }
  | .cell => do s.store (← Sign.sum? sign (← s.element? s.current).toNat n)

end State

inductive Outcome where
  | returned
  | undefined
deriving DecidableEq, Repr

structure Run where
  todo : List Statement
  state : State

namespace Run

def proceed (s : State) (rest : List Statement) :
    Option State → Progress Run (Outcome × State)
  | some s => .running ⟨rest, s⟩
  | none => .stopped (.undefined, s)

/-- The end of `main` returns as well. A loop is tested before each pass. -/
def step (r : Run) : Progress Run (Outcome × State) :=
  match r.todo with
  | [] | .finish :: _ => .stopped (.returned, r.state)
  | .putchar :: rest => proceed r.state rest r.state.putchar
  | .getchar :: rest => proceed r.state rest r.state.getchar
  | .change target sign n :: rest => proceed r.state rest (r.state.change target sign n)
  | .loop body :: rest =>
    match r.state.element? r.state.current with
    | none => .stopped (.undefined, r.state)
    | some v =>
      if v = 0 then .running ⟨rest, r.state⟩
      else .running ⟨body ++ .loop body :: rest, r.state⟩

theorem step_loop {s : State} {v : UInt8} (h : s.element? s.current = some v)
    (body rest : List Statement) :
    step ⟨.loop body :: rest, s⟩ =
      if v = 0 then .running ⟨rest, s⟩ else .running ⟨body ++ .loop body :: rest, s⟩ := by
  simp only [step, h]

end Run

/-- The run of a program on an input, followed for at most `steps` steps. -/
def TranslationUnit.run (steps : Nat) (u : TranslationUnit) (input : List UInt8) :
    Progress Run (Outcome × State) :=
  Progress.follow Run.step steps ⟨u.main, .start u.memorySize input⟩

end Brainfuck.C
