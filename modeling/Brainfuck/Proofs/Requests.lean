import Brainfuck.Program.Parser

/-!
# Requests

The calls that a lexer and a token stream answer, and the answers to any sequence of them. A parse
that fails or has no loop to parse is answered as well, and later requests go on from where it left
the stream.
-/

namespace Brainfuck

inductive Answer where
  | token (t : Token)
  | tokens (ts : List Token)
  | single (parsed : Except ParseError Statement)
  | loop (parsed : Except LoopError Statement)
  | program (parsed : Except ParseError Program)
  | nothing

inductive Lexer.Request where
  | next
  | collect
deriving DecidableEq, Repr

inductive TokenStream.Look where
  | lookahead
  | next
deriving DecidableEq, Repr

inductive TokenStream.Request where
  | look (l : Look)
  | parseSingle
  | parseLoop
  | parseProgram
deriving DecidableEq, Repr

/-- A request to a lexer or to the token stream that it was made into. -/
inductive ReaderRequest where
  | lexer (r : Lexer.Request)
  | stream (r : TokenStream.Request)
  /-- Takes the lexer back out of its stream. -/
  | intoLexer
deriving DecidableEq, Repr

section Answers

variable {σ : Type} [Source σ]

def Lexer.answer (l : Lexer σ) : Lexer.Request → Answer × Lexer σ
  | .next => (.token l.next.1, l.next.2)
  | .collect => (.tokens l.collect.1, l.collect.2)

namespace TokenStream

def answerLook (ts : TokenStream σ) : Look → Answer × TokenStream σ
  | .lookahead => (.token ts.lookahead.1, ts.lookahead.2)
  | .next => (.token ts.next.1, ts.next.2)

def answer (ts : TokenStream σ) : Request → Answer × TokenStream σ
  | .look l => ts.answerLook l
  | .parseSingle => (.single ts.parseSingle.1, ts.parseSingle.2)
  | .parseLoop => (.loop ts.parseLoop.1, ts.parseLoop.2)
  | .parseProgram => (.program ts.parseProgram.1, ts.parseProgram.2)

/-- A lexer by itself is a stream that has shown nothing. Taken back out of one, it has lost the
token shown. -/
def answerReader (ts : TokenStream σ) : ReaderRequest → Answer × TokenStream σ
  | .lexer r => ((ts.lexer.answer r).1, ofLexer (ts.lexer.answer r).2)
  | .stream r => ts.answer r
  | .intoLexer => (.nothing, ofLexer ts.lexer)

end TokenStream

end Answers

/-! ## One request after the other -/

section Trace

variable {S T ρ ν : Type}

/-- The answers to requests made in turn, each with a view of the state that it leaves. -/
def trace (answer : S → ρ → Answer × S) (view : S → ν) (s : S) : List ρ → List (Answer × ν)
  | [] => []
  | r :: rs => ((answer s r).1, view (answer s r).2) :: trace answer view (answer s r).2 rs

/-- What every request keeps fixes what is seen. -/
theorem trace_eq_trace {R : S → T → Prop} {answer : S → ρ → Answer × S}
    {answer' : T → ρ → Answer × T} {view : S → ν} {view' : T → ν}
    (hstep : ∀ s t r, R s t → (answer s r).1 = (answer' t r).1 ∧ R (answer s r).2 (answer' t r).2)
    (hview : ∀ s t, R s t → view s = view' t) {s : S} {t : T} (h : R s t) (requests : List ρ) :
    trace answer view s requests = trace answer' view' t requests := by
  induction requests generalizing s t with
  | nil => rfl
  | cons r rs ih =>
    obtain ⟨hanswer, hnext⟩ := hstep s t r h
    rw [trace, trace, hanswer, hview _ _ hnext, ih hnext]

end Trace

end Brainfuck
