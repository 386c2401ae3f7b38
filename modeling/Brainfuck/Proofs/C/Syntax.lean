import Mathlib.Data.List.Basic

/-!
# A little C

As much of C as a listing is written in, and a reader for it. A text is cut into lexemes, the
lexemes into clauses, and the braces among the clauses put the statements together.
-/

namespace Brainfuck.C

inductive Target where
  | current
  | cell
deriving DecidableEq, Repr

inductive Sign where
  | plus
  | minus
deriving DecidableEq, Repr

inductive Statement where
  | putchar
  | getchar
  | change (target : Target) (sign : Sign) (count : Nat)
  | loop (body : List Statement)
  | finish
deriving Repr

/-- A complete program: the size of `memory` and the statements of `main`. -/
structure TranslationUnit where
  memorySize : Nat
  main : List Statement
deriving Repr

/-! ## Lexemes -/

structure Scanner where
  /-- The lexemes that are complete, last first. -/
  lexemes : List String
  /-- The characters of the lexeme under way, last first. -/
  begun : List Char
deriving DecidableEq

namespace Scanner

def flush (s : Scanner) : Scanner :=
  if s.begun.isEmpty then s else ⟨String.ofList s.begun.reverse :: s.lexemes, []⟩

def isWordChar (c : Char) : Bool := c.isAlphanum || c == '_'

def separators : List Char := ['(', ')', '[', ']', '{', '}', ';']

def pairs : List (Char × Char) := [('+', '+'), ('-', '-'), ('+', '='), ('-', '='), ('!', '=')]

/-- Whether the character belongs to the lexeme that has begun. A directive takes up its line. -/
def continues (begun : List Char) (c : Char) : Bool :=
  match begun with
  | [] => false
  | last :: before =>
    if begun.getLast? = some '#' then c != '\n'
    else if isWordChar last then isWordChar c
    else before.isEmpty && pairs.contains (last, c)

def step (s : Scanner) (c : Char) : Scanner :=
  if continues s.begun c then { s with begun := c :: s.begun }
  else if c.isWhitespace then s.flush
  else if separators.contains c then ⟨String.singleton c :: s.flush.lexemes, []⟩
  else ⟨s.flush.lexemes, [c]⟩

def scan (s : Scanner) (text : List Char) : Scanner := text.foldl step s

end Scanner

def lexemes (text : List Char) : List String := (Scanner.scan ⟨[], []⟩ text).flush.lexemes.reverse

/-! ## Clauses -/

/-- What comes to an end with a semicolon or a brace, or is a directive. -/
inductive Clause where
  | directive
  | memory (size : Nat)
  | current
  | main
  | simple (s : Statement)
  | blockStart
  | blockEnd
deriving Repr

/-- A decimal number without zeros before it. -/
def number? (l : String) : Option Nat :=
  let n := Nat.ofDigitChars 10 l.toList 0
  if n.repr = l then some n else none

def closes (l : String) : Bool := [';', '{', '}', '#'].any (l.toList.head? = some ·)

/-- Cuts lexemes behind each one that closes a clause. -/
def cut (begun : List String) : List String → List (List String)
  | [] => if begun.isEmpty then [] else [begun.reverse]
  | l :: rest => if closes l then (l :: begun).reverse :: cut [] rest else cut (l :: begun) rest

def changeBy? (target : Target) (sign : Sign) (n : String) : Option Clause :=
  (number? n).map fun n => .simple (.change target sign n)

def clause? : List String → Option Clause
  | ["#include <stdio.h>"] => some .directive
  | ["unsigned", "char", "memory", "[", n, "]", ";"] => (number? n).map .memory
  | ["long", "long", "current", "=", "0", ";"] => some .current
  | ["int", "main", "(", "void", ")", "\x7b"] => some .main
  | ["putchar", "(", "memory", "[", "current", "]", ")", ";"] => some (.simple .putchar)
  | ["memory", "[", "current", "]", "=", "getchar", "(", ")", ";"] => some (.simple .getchar)
  | ["current", "++", ";"] => some (.simple (.change .current .plus 1))
  | ["current", "--", ";"] => some (.simple (.change .current .minus 1))
  | ["current", "+=", n, ";"] => changeBy? .current .plus n
  | ["current", "-=", n, ";"] => changeBy? .current .minus n
  | ["memory", "[", "current", "]", "++", ";"] => some (.simple (.change .cell .plus 1))
  | ["memory", "[", "current", "]", "--", ";"] => some (.simple (.change .cell .minus 1))
  | ["memory", "[", "current", "]", "+=", n, ";"] => changeBy? .cell .plus n
  | ["memory", "[", "current", "]", "-=", n, ";"] => changeBy? .cell .minus n
  | ["while", "(", "memory", "[", "current", "]", "!=", "0", ")", "\x7b"] => some .blockStart
  | ["return", "0", ";"] => some (.simple .finish)
  | ["\x7d"] => some .blockEnd
  | _ => none

def clauses? (text : List Char) : Option (List Clause) := (cut [] (lexemes text)).mapM clause?

/-! ## Blocks -/

/-- Puts together the statements up to the brace that ends the outermost block, which must be the
last clause. All blocks have their last statement first. -/
def block? (outer : List (List Statement)) (block : List Statement) :
    List Clause → Option (List Statement)
  | .simple s :: rest => block? outer (s :: block) rest
  | .blockStart :: rest => block? (block :: outer) [] rest
  | .blockEnd :: rest =>
    match outer with
    | [] => if rest.isEmpty then some block.reverse else none
    | around :: outer => block? outer (.loop block.reverse :: around) rest
  | _ => none

def TranslationUnit.read? (text : String) : Option TranslationUnit :=
  match clauses? text.toList with
  | some (.directive :: .memory memorySize :: .current :: .main :: body) =>
    (block? [] [] body).map fun main => ⟨memorySize, main⟩
  | _ => none

end Brainfuck.C
