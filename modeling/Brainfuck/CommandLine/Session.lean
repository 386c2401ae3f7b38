import Brainfuck.CommandLine.Arguments
import Brainfuck.Execution
import Brainfuck.Program.Listing
import Brainfuck.Program.Parser
import Brainfuck.Program.Tree
import Brainfuck.Source.Bytes

/-!
# Sessions

One call of the program, from its arguments to its exit code. The program is read and parsed whole
before it is run or listed as C code. The files it can reach are a parameter.
-/

namespace Brainfuck.CommandLine

/-- How a file opens that has been opened a number of times before. -/
abbrev Opening := String → Nat → Except IoError (List ReadAnswer)

/-- The files of a session. -/
structure Host where
  opening : Opening
  /-- Whether a file can be written. -/
  saving : String → Except IoError Unit

/-! ## Failures -/

/-- What keeps a program from being read. -/
inductive ReadFailure where
  | opening (e : IoError)
  | parsing (e : ParseError)
deriving DecidableEq, Repr

def ReadFailure.message : ReadFailure → String
  | opening e => e.text
  | parsing e => e.message

inductive Failure where
  | conflict
  | inline (e : ReadFailure)
  | file (path : String) (e : ReadFailure)
  /-- The file parses as far as it could be read. -/
  | reading (path : String) (e : IoError)
  | running (f : Fault)
  | saving (e : IoError)
deriving DecidableEq, Repr

namespace Failure

def message : Failure → String
  | conflict => "`interpret` and `codegen` can't be used in the same run"
  | inline e => e.message
  | file path e => s!"{path}: {e.message}"
  | reading path e => s!"reading {path} failed: {e.text}"
  | running f => f.message
  | saving e => e.text

/-- An overflow is a fault of the program itself and not of its surroundings. -/
def exitCode : Failure → Nat
  | running (.overflow _) => 101
  | _ => 1

end Failure

/-! ## Text in colour -/

inductive Style where
  | blue
  | boldRed
deriving DecidableEq, Repr

/-- The parameters of the escape sequence that turns a style on. -/
def Style.codes : Style → String
  | blue => "34"
  | boldRed => "1;31"

def paint (color : Bool) (style : Style) (text : String) : String :=
  if color then s!"\x1b[{style.codes}m{text}\x1b[0m" else text

/-- Fills a text with blanks up to a width. -/
def padded (width : Nat) (text : String) : String :=
  text ++ String.ofList (List.replicate (width - text.length) ' ')

/-- Whether to paint, by the variables CLICOLOR, CLICOLOR_FORCE and NO_COLOR of the environment. A
variable that is `0` counts as off. -/
def wantsColor (cliColor force noColor : Option String) (terminal : Bool) : Bool :=
  if force.any (· != "0") then true
  else if noColor.isSome then false
  else terminal && cliColor.all (· != "0")

def tokenLine (color : Bool) (t : Token) : String :=
  paint color .blue (padded 18 t.kind.name) ++ s!" {t.value} {t.span.text}\n"

def errorLine (color : Bool) (message : String) : String :=
  paint color .boldRed "error" ++ s!": {message}\n"

/-! ## Reading the program -/

/-- What was printed on the way to a result. -/
structure Printed (α : Type) where
  stdout : String
  result : α

section

variable {σ : Type} [Source σ]

/-- Parses a program, and draws it if asked to. The source shows how reading it went. -/
def readProgram (draw : Bool) : Except IoError σ → Printed (Except ReadFailure (Program × σ))
  | .error e => ⟨"", .error (.opening e)⟩
  | .ok source =>
    match (TokenStream.ofSource source).parseProgram with
    | (.error e, _) => ⟨"", .error (.parsing e)⟩
    | (.ok p, after) => ⟨if draw then Program.tree p else "", .ok (p, after.lexer.source)⟩

/-- Lists the tokens if asked to and then parses. The source is opened anew for each. -/
def frontEnd (o : Options) (color : Bool) (opening : Nat → Except IoError σ) :
    Printed (Except ReadFailure (Program × σ)) :=
  let draw := o.commands.contains .ast
  if o.commands.contains .tokens then
    match opening 0 with
    | .error e => ⟨"", .error (.opening e)⟩
    | .ok source =>
      let listed := String.join ((Lexer.ofSource source).collect.1.map (tokenLine color))
      let parsed := readProgram draw (opening 1)
      ⟨listed ++ parsed.stdout, parsed.result⟩
  else readProgram draw (opening 0)

end

/-- The whole program, or why there is none. -/
def readWhole (opening : Opening) (o : Options) (color : Bool) : Printed (Except Failure Program) :=
  match o.origin with
  | .inline text =>
    let read := frontEnd o color fun _ => .ok (TextSource.ofText text)
    match read.result with
    | .error e => ⟨read.stdout, .error (.inline e)⟩
    | .ok (p, _) => ⟨read.stdout, .ok p⟩
  | .file path =>
    let read := frontEnd o color fun n => (opening path n).map ByteSource.ofScript
    match read.result with
    | .error e => ⟨read.stdout, .error (.file path e)⟩
    | .ok (p, source) =>
      match source.failure with
      | some e => ⟨read.stdout, .error (.reading path e)⟩
      | none => ⟨read.stdout, .ok p⟩

/-! ## What is done with it -/

inductive Task where
  | nothing
  | interpret (p : Program)
  | print (code : String)
  | save (path code : String)
deriving DecidableEq, Repr

def task (o : Options) (p : Program) : Task :=
  if o.commands.contains .interpret then .interpret p
  else if o.commands.contains .codegen then
    let code := if o.bodyOnly then Program.listing p else Program.wholeListing p o.memorySize
    match o.output with
    | some path => .save path code
    | none => .print code
  else .nothing

/-- Everything up to the last command, which is still to be carried out. -/
def prepare (opening : Opening) (o : Options) (color : Bool) : Printed (Except Failure Task) :=
  if o.conflict then ⟨"", .error .conflict⟩
  else
    let read := readWhole opening o color
    ⟨read.stdout, read.result.map (task o)⟩

structure Outcome where
  stdout : List UInt8
  /-- The file that was written, with its contents. -/
  saved : Option (String × String)
  result : Except Failure Unit

def bytes (text : String) : List UInt8 := text.toUTF8.data.toList

/-- A whole session, whose run is followed for at most `steps` steps. -/
def run (steps : Nat) (host : Host) (color : Bool) (stdin : List ReadAnswer) (o : Options) :
    Option Outcome :=
  let prepared := prepare host.opening o color
  let printed := bytes prepared.stdout
  match prepared.result with
  | .error f => some ⟨printed, none, .error f⟩
  | .ok .nothing => some ⟨printed, none, .ok ()⟩
  | .ok (.print code) => some ⟨printed ++ bytes code, none, .ok ()⟩
  | .ok (.save path code) =>
    match host.saving path with
    | .ok () => some ⟨printed, some (path, code), .ok ()⟩
    | .error e => some ⟨printed, none, .error (.saving e)⟩
  | .ok (.interpret p) =>
    match (Machine.ofConsole o.eof (.ofScripts stdin [] [])).interpret steps p with
    | .running _ => none
    | .stopped (result, m) =>
      some ⟨printed ++ m.console.output.toList, none, result.mapError .running⟩

/-! ## From arguments to exit code -/

/-- The name that the program is called by. -/
def programName : String := "brainfold"

def versionText : String := s!"{programName} 0.1.0\n"

def helpText : String :=
  "Brainf**k interpreter and C code generator\n\n" ++
  s!"Usage: {programName} [OPTIONS] <--eval <EVAL>|--file <FILE>> [COMMANDS]...\n\n" ++
  "Commands:\n" ++
  "  tokens                     Output the tokens\n" ++
  "  ast                        Output the ast as a tree\n" ++
  "  interpret                  Run the program (default)\n" ++
  "  codegen                    Output equivalent C\n\n" ++
  "Options:\n" ++
  "  -e, --eval <EVAL>          Program text to run\n" ++
  "  -f, --file <FILE>          Program file to run\n" ++
  "      --eof <EOF>            What `,` stores once input runs out: unchanged, zero or max\n" ++
  "  -m, --memory-size <SIZE>   Size of the memory array in generated code, 30000 if not given\n" ++
  "      --body-only            Only emit the statements, without the surrounding program\n" ++
  "  -o, --output <OUTPUT>      Write generated code here instead of stdout\n" ++
  "  -v, --verbose              More logging, repeat for more\n" ++
  "  -h, --help                 Print help\n" ++
  "  -V, --version              Print version\n"

/-- What a session leaves behind. -/
structure Report where
  code : Nat
  stdout : List UInt8
  stderr : String
  saved : Option (String × String)
deriving DecidableEq, Repr

def Stop.report (color : Bool) : Stop → Report
  | version => ⟨0, bytes versionText, "", none⟩
  | help => ⟨0, bytes helpText, "", none⟩
  | usage e => ⟨2, [], errorLine color e.message, none⟩

def Outcome.report (color : Bool) (o : Outcome) : Report :=
  match o.result with
  | .ok () => ⟨0, o.stdout, "", o.saved⟩
  | .error f => ⟨f.exitCode, o.stdout, errorLine color f.message, o.saved⟩

def session (steps : Nat) (host : Host) (color : Bool) (stdin : List ReadAnswer)
    (args : List String) : Option Report :=
  match options args with
  | .error stop => some (stop.report color)
  | .ok o => (run steps host color stdin o).map (Outcome.report color)

end Brainfuck.CommandLine
