import Brainfuck.Span
import Brainfuck.Symbol

/-!
# Tokens

A token is a symbol of the source with the span it stands at, or the end of the source. Comments
have a kind but never become tokens of a source.
-/

namespace Brainfuck

inductive TokenKind where
  | symbol (s : Symbol)
  | comment
  | endOfFile
deriving DecidableEq, Repr

namespace TokenKind

/-- The kind of a single character. -/
def ofChar (c : Char) : TokenKind :=
  match Symbol.ofChar? c with
  | some s => symbol s
  | none => comment

def name : TokenKind → String
  | symbol s => s.name
  | comment => "Comment"
  | endOfFile => "EndOfFile"

/-- Every kind there is. -/
def all : List TokenKind :=
  [symbol .dot, symbol .comma, symbol (.operator .shiftLeft), symbol (.operator .shiftRight),
   symbol .leftBracket, symbol .rightBracket, symbol (.operator .increment),
   symbol (.operator .decrement), comment, endOfFile]

/-- The kind with this name. -/
def ofName? (name : String) : Option TokenKind := all.find? (·.name == name)

theorem mem_all (k : TokenKind) : k ∈ all := by
  rcases k with ⟨_ | _ | ⟨_ | _ | _ | _⟩ | _ | _⟩ | _ | _ <;> decide

end TokenKind

structure Token where
  span : Span
  kind : TokenKind
  value : Char
deriving DecidableEq, Repr

namespace Token

/-- The end of a source of `position` characters. -/
def endOfFile (position : Nat) : Token := ⟨.point position, .endOfFile, '\x00'⟩

/-- The symbol whose character ends at `position`. -/
def ofSymbol (s : Symbol) (position : Nat) (h : 0 < position) : Token :=
  ⟨.endingAt position h, .symbol s, s.toChar⟩

def isEnd (t : Token) : Bool := t.kind == .endOfFile

@[simp] theorem isEnd_endOfFile (n : Nat) : (endOfFile n).isEnd = true := rfl

@[simp] theorem isEnd_ofSymbol (s : Symbol) (n : Nat) (h : 0 < n) :
    (ofSymbol s n h).isEnd = false := by
  simp [isEnd, ofSymbol]

end Token

end Brainfuck
