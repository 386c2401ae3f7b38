import Brainfuck.EndOfInput

/-!
# Options of the command line

What a command line asks for once it has been understood.
-/

namespace Brainfuck.CommandLine

/-- What can be done with a program. Commands are carried out in this order. -/
inductive Command where
  | tokens
  | ast
  | interpret
  | codegen
deriving DecidableEq, Repr

namespace Command

def word : Command → String
  | tokens => "tokens"
  | ast => "ast"
  | interpret => "interpret"
  | codegen => "codegen"

def all : List Command := [tokens, ast, interpret, codegen]

def ofWord? (word : String) : Option Command := all.find? (·.word == word)

theorem mem_all (c : Command) : c ∈ all := by
  cases c <;> decide

end Command

/-- Where the program comes from. -/
inductive Origin where
  | inline (text : String)
  | file (path : String)
deriving DecidableEq, Repr

structure Options where
  origin : Origin
  commands : List Command
  eof : EndOfInput
  memorySize : Nat
  bodyOnly : Bool
  /-- The file that generated code goes to in place of standard output. -/
  output : Option String
  verbosity : Nat
deriving DecidableEq, Repr

/-- Whether the options ask to run the program and to generate code as well. -/
def Options.conflict (o : Options) : Bool :=
  o.commands.contains .interpret && o.commands.contains .codegen

end Brainfuck.CommandLine
