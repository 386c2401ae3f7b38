import Brainfuck.Channel

/-!
# The console

The streams of a run: one to read from and one to write to, with all that was written and every
call that was made. Reads and writes are made again when they are interrupted, flushes are not.
-/

namespace Brainfuck

/-- A call on a stream with its answer. -/
inductive Call where
  | read (a : ReadAnswer)
  | write (b : UInt8) (a : WriteAnswer)
  | flush (a : FlushAnswer)
deriving DecidableEq, Repr

structure Console where
  /-- The answers to the reads still to be made. -/
  input : List ReadAnswer
  writes : List WriteAnswer
  flushes : List FlushAnswer
  output : Array UInt8
  calls : Array Call
deriving DecidableEq, Repr

namespace Console

def ofScripts (input : List ReadAnswer) (writes : List WriteAnswer)
    (flushes : List FlushAnswer) : Console :=
  ⟨input, writes, flushes, #[], #[]⟩

/-- The next byte of the input, or nothing at its end. -/
def read (c : Console) : Except IoError (Option UInt8) × Console :=
  let settled := settleRead c.input
  let c := { c with
    input := settled.rest
    calls := c.calls ++ (settled.interruptions ++ [settled.answer]).map Call.read }
  match settled.answer with
  | .byte b => (.ok (some b), c)
  | .ended => (.ok none, c)
  | .failed e => (.error e, c)

def write (c : Console) (b : UInt8) : Except IoError Unit × Console :=
  let settled := settleWrite c.writes
  let c := { c with
    writes := settled.rest
    calls := c.calls ++ (settled.interruptions ++ [settled.answer]).map (Call.write b) }
  match settled.answer with
  | .accepted => (.ok (), { c with output := c.output.push b })
  | .nothing => (.error .nothingWritten, c)
  | .failed e => (.error e, c)

def flush (c : Console) : Except IoError Unit × Console :=
  let answer := c.flushes.headD .done
  let c := { c with flushes := c.flushes.tail, calls := c.calls.push (.flush answer) }
  match answer with
  | .done => (.ok (), c)
  | .failed e => (.error e, c)

end Console

end Brainfuck
