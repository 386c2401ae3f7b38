import Brainfuck.CommandLine.Session

/-!
# The program

Connects a session to the streams and files of the system.
-/

namespace Brainfuck.CommandLine

/-- The text of a failed system call ends with its number. -/
def systemError (e : IO.Error) : IoError :=
  let numbered (kind : IoErrorKind) (code : UInt32) (details : String) : IoError :=
    let shown := String.ofList (details.toList.modifyHead Char.toUpper)
    ⟨kind, s!"{shown} (os error {code})"⟩
  match e with
  | .interrupted _ code details => numbered .interrupted code details
  | .noFileOrDirectory _ code details => numbered .notFound code details
  | .inappropriateType _ code details => numbered .notADirectory code details
  | .permissionDenied _ code details => numbered .permissionDenied code details
  | .invalidArgument _ code details => numbered .invalidFilename code details
  | .alreadyExists _ code details | .noSuchThing _ code details
  | .resourceExhausted _ code details => numbered .other code details
  | .otherError code details | .resourceBusy code details | .resourceVanished code details
  | .hardwareFault code details | .illegalOperation code details
  | .unsatisfiedConstraints code details => numbered .other code details
  | e => ⟨.other, s!"{e}"⟩

/-- All that a stream answers to reads of one byte, up to its end or a failure. -/
partial def readScript (handle : IO.FS.Handle) (script : List ReadAnswer) :
    IO (List ReadAnswer) := do
  try
    let chunk ← handle.read 4096
    if chunk.isEmpty then pure script.reverse
    else readScript handle (chunk.toList.reverse.map .byte ++ script)
  catch e => pure (.failed (systemError e) :: script).reverse

def openFile (path : String) : IO (Except IoError (List ReadAnswer)) := do
  try
    let handle ← IO.FS.Handle.mk path .read
    pure (.ok (← readScript handle []))
  catch e => pure (.error (systemError e))

partial def readByte (stdin : IO.FS.Stream) : IO ReadAnswer := do
  try
    let bytes ← stdin.read 1
    pure (bytes.toList.head?.elim .ended .byte)
  catch
    | .interrupted .. => readByte stdin
    | e => pure (.failed (systemError e))

/-- Hands over what a machine has written. -/
def deliver (stdout : IO.FS.Stream) (m : Machine) : IO Machine := do
  unless m.console.output.isEmpty do
    stdout.write ⟨m.console.output⟩
  pure { m with console := { m.console with output := #[], calls := #[] } }

/-- Follows a run to its end. Input is read when a statement asks for it. -/
partial def follow (stdin stdout : IO.FS.Stream) (e : Execution) : IO (Except Fault Unit) := do
  let input ← match e.todo with
    | .input :: _ =>
      stdout.flush
      pure [← readByte stdin]
    | _ => pure []
  match Execution.step { e with machine.console.input := input } with
  | .running next => follow stdin stdout { next with machine := ← deliver stdout next.machine }
  | .stopped (result, m) =>
    let _ ← deliver stdout m
    stdout.flush
    pure result

def carryOut (stdin stdout : IO.FS.Stream) (eof : EndOfInput) :
    Task → IO (Except Failure Unit)
  | .nothing => pure (.ok ())
  | .print code => do
    stdout.putStr code
    pure (.ok ())
  | .save path code => do
    try
      IO.FS.writeFile path code
      pure (.ok ())
    catch e => pure (.error (.saving (systemError e)))
  | .interpret p => do
    let m := Machine.ofConsole eof (.ofScripts [] [] [])
    pure ((← follow stdin stdout ⟨p, m⟩).mapError .running)

/-- Carries out a session and answers with its exit code. -/
def perform (stdin stdout stderr : IO.FS.Stream) (color : Bool) (args : List String) :
    IO Nat := do
  match options args with
  | .error stop =>
    let r := stop.report color
    stdout.write ⟨r.stdout.toArray⟩
    stderr.putStr r.stderr
    pure r.code
  | .ok o =>
    let opened ← match o.conflict, o.origin with
      | false, .file path => openFile path
      | _, _ => pure (.ok [])
    let prepared := prepare (fun _ _ => opened) o color
    stdout.putStr prepared.stdout
    let result ← match prepared.result with
      | .ok task => carryOut stdin stdout o.eof task
      | .error f => pure (.error f)
    match result with
    | .ok () => pure 0
    | .error f =>
      stderr.putStr (errorLine color f.message)
      pure f.exitCode

end Brainfuck.CommandLine

open Brainfuck.CommandLine in
def main (args : List String) : IO UInt32 := do
  let stdin ← IO.getStdin
  let stdout ← IO.getStdout
  let stderr ← IO.getStderr
  let color := wantsColor (← IO.getEnv "CLICOLOR") (← IO.getEnv "CLICOLOR_FORCE")
    (← IO.getEnv "NO_COLOR") (← stdout.isTty)
  let code ← perform stdin stdout stderr color args
  pure (UInt32.ofNat code)
