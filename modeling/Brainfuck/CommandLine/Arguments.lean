import Brainfuck.CommandLine.Options

/-!
# Reading arguments

Arguments are read from left to right, and the first thing wrong is reported. A value may be
attached to its option, after `=` or directly after a short name, or be the next argument. An
argument that begins with a dash and is not the dash alone is never taken as a value. After `--`
every argument is a command.
-/

namespace Brainfuck.CommandLine

/-- An option that takes a value. -/
inductive ValueOption where
  | eval
  | file
  | eof
  | memorySize
  | output
deriving DecidableEq, Repr

def ValueOption.name : ValueOption → String
  | eval => "--eval"
  | file => "--file"
  | eof => "--eof"
  | memorySize => "--memory-size"
  | output => "--output"

inductive Flag where
  | bodyOnly
  | verbose
  | version
  | help
deriving DecidableEq, Repr

def Flag.name : Flag → String
  | bodyOnly => "--body-only"
  | verbose => "--verbose"
  | version => "--version"
  | help => "--help"

inductive Switch where
  | value (o : ValueOption)
  | flag (f : Flag)
deriving DecidableEq, Repr

namespace Switch

def name : Switch → String
  | value o => o.name
  | flag f => f.name

def all : List Switch :=
  [value .eval, value .file, value .eof, value .memorySize, value .output,
   flag .bodyOnly, flag .verbose, flag .version, flag .help]

def ofLong? (name : String) : Option Switch := all.find? (·.name == name)

def ofShort? : Char → Option Switch
  | 'e' => some (value .eval)
  | 'f' => some (value .file)
  | 'm' => some (value .memorySize)
  | 'o' => some (value .output)
  | 'v' => some (flag .verbose)
  | 'V' => some (flag .version)
  | 'h' => some (flag .help)
  | _ => none

end Switch

inductive UsageError where
  | unknownSwitch (text : String)
  | missingValue (o : ValueOption)
  | unwantedValue (f : Flag)
  | invalidValue (o : ValueOption) (value : String)
  | repeated (s : Switch)
  | unknownCommand (word : String)
  | programTwice
  | noProgram
deriving DecidableEq, Repr

def UsageError.message : UsageError → String
  | unknownSwitch text => s!"unexpected argument '{text}' found"
  | missingValue o => s!"a value is required for '{o.name}' but none was supplied"
  | unwantedValue f => s!"unexpected value for '{f.name}' found; no more were expected"
  | invalidValue o value => s!"invalid value '{value}' for '{o.name}'"
  | repeated s => s!"the argument '{s.name}' cannot be used multiple times"
  | unknownCommand word => s!"invalid value '{word}' for '[COMMANDS]...'"
  | programTwice => "the argument '--eval' cannot be used with '--file'"
  | noProgram => "the following required arguments were not provided: <--eval|--file>"

/-- What ends the reading of arguments early. -/
inductive Stop where
  | version
  | help
  | usage (e : UsageError)
deriving DecidableEq, Repr

/-- The options read so far. -/
structure Draft where
  eval : Option String
  file : Option String
  commands : List Command
  eof : Option EndOfInput
  memorySize : Option Nat
  bodyOnly : Bool
  output : Option String
  verbosity : Nat
deriving DecidableEq, Repr

/-! ## Values -/

/-- Sizes are decimal, may begin with a plus, and fit into 64 bits. -/
def size? (s : String) : Option Nat :=
  let digits := if s.toList.head? = some '+' then s.toList.tail else s.toList
  if digits.isEmpty || !digits.all Char.isDigit then none
  else
    let n := digits.foldl (fun n d => 10 * n + (d.toNat - '0'.toNat)) 0
    if n < 18446744073709551616 then some n else none

def path? (s : String) : Option String := if s.isEmpty then none else some s

/-- Stores a value that was not given before. -/
def store {α : Type} (o : ValueOption) (old : Option α) (value : String) (read : Option α) :
    Except Stop (Option α) :=
  if old.isSome then .error (.usage (.repeated (.value o)))
  else
    match read with
    | some a => .ok (some a)
    | none => .error (.usage (.invalidValue o value))

namespace Draft

def empty : Draft := ⟨none, none, [], none, none, false, none, 0⟩

def setValue (d : Draft) (o : ValueOption) (value : String) : Except Stop Draft :=
  match o with
  | .eval => do pure { d with eval := ← store o d.eval value (some value) }
  | .file => do pure { d with file := ← store o d.file value (path? value) }
  | .eof => do pure { d with eof := ← store o d.eof value (EndOfInput.ofWord value false).toOption }
  | .memorySize => do pure { d with memorySize := ← store o d.memorySize value (size? value) }
  | .output => do pure { d with output := ← store o d.output value (path? value) }

/-- Only the verbosity may be raised more than once. -/
def setFlag (d : Draft) (f : Flag) : Except Stop Draft :=
  match f with
  | .bodyOnly =>
    if d.bodyOnly then .error (.usage (.repeated (.flag .bodyOnly)))
    else .ok { d with bodyOnly := true }
  | .verbose => .ok { d with verbosity := d.verbosity + 1 }
  | .version => .error .version
  | .help => .error .help

def addCommand (d : Draft) (word : String) : Except Stop Draft :=
  match Command.ofWord? word with
  | some c => .ok { d with commands := d.commands ++ [c] }
  | none => .error (.usage (.unknownCommand word))

/-- The options of a command line that has been read to its end. -/
def finish (d : Draft) : Except Stop Options :=
  let options (origin : Origin) : Options :=
    { origin
      commands := if d.commands.isEmpty then [.interpret] else d.commands
      eof := d.eof.getD .unchanged
      memorySize := d.memorySize.getD 30000
      bodyOnly := d.bodyOnly
      output := d.output
      verbosity := d.verbosity }
  match d.eval, d.file with
  | some text, none => .ok (options (.inline text))
  | none, some path => .ok (options (.file path))
  | some _, some _ => .error (.usage .programTwice)
  | none, none => .error (.usage .noProgram)

end Draft

/-! ## Arguments -/

/-- Reads what follows a single dash. An option at its end still wants its value. -/
def readShort (d : Draft) : List Char → Except Stop (Draft × Option ValueOption)
  | [] => .ok (d, none)
  | c :: rest =>
    match Switch.ofShort? c with
    | none => .error (.usage (.unknownSwitch (String.ofList ['-', c])))
    | some (.flag f) => do readShort (← d.setFlag f) rest
    | some (.value o) =>
      match rest with
      | [] => .ok (d, some o)
      | '=' :: value => do pure (← d.setValue o (String.ofList value), none)
      | value => do pure (← d.setValue o (String.ofList value), none)

/-- Reads an argument that begins with two dashes. -/
def readLong (d : Draft) (arg : List Char) : Except Stop (Draft × Option ValueOption) :=
  let name := String.ofList (arg.takeWhile (· != '='))
  match Switch.ofLong? name, arg.dropWhile (· != '=') with
  | none, _ => .error (.usage (.unknownSwitch name))
  | some (.flag f), [] => do pure (← d.setFlag f, none)
  | some (.flag f), _ :: _ => .error (.usage (.unwantedValue f))
  | some (.value o), [] => .ok (d, some o)
  | some (.value o), _ :: value => do pure (← d.setValue o (String.ofList value), none)

/-- Reads one argument, which may be an option that still wants its value. -/
def readArgument (d : Draft) (arg : String) : Except Stop (Draft × Option ValueOption) :=
  match arg.toList with
  | '-' :: '-' :: _ => readLong d arg.toList
  | '-' :: c :: rest => readShort d (c :: rest)
  | _ => do pure (← d.addCommand arg, none)

/-- Whether an argument is read as options where a value could stand. -/
def beginsOption (arg : String) : Bool :=
  match arg.toList with
  | '-' :: _ :: _ => true
  | _ => false

def readArguments (d : Draft) : List String → Except Stop Draft
  | [] => .ok d
  | "--" :: rest => rest.foldlM Draft.addCommand d
  | arg :: rest => do
    match ← readArgument d arg, rest with
    | (d, none), rest => readArguments d rest
    | (_, some o), [] => throw (.usage (.missingValue o))
    | (d, some o), value :: rest =>
      if beginsOption value then throw (.usage (.missingValue o))
      else readArguments (← d.setValue o value) rest

/-- The options that a command line gives. -/
def options (args : List String) : Except Stop Options := do
  (← readArguments .empty args).finish

end Brainfuck.CommandLine
