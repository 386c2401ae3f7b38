import Brainfuck.Program
import Brainfuck.Program.ParseError
import Brainfuck.Source.Text
import Brainfuck.Token.Stream

/-!
# Parsing

Programs are parsed from a token stream with one token of lookahead. Runs of an operator fold into
one statement, whatever comments stand inside them. Only the brackets can be wrong, and the first
thing wrong ends the parse.
-/

namespace Brainfuck

/-- An open loop: where it was opened and its statements so far, the latest first. -/
structure OpenLoop where
  openedAt : Span
  statements : List Statement

namespace OpenLoop

def opened (span : Span) : OpenLoop := ⟨span, []⟩

def push (l : OpenLoop) (s : Statement) : OpenLoop := { l with statements := s :: l.statements }

def close (l : OpenLoop) : Statement := .loop l.statements.reverse

end OpenLoop

namespace TokenStream

variable {σ : Type} [Source σ]

/-! ## One statement that is no loop -/

/-- Takes the tokens of an operator that come next and adds their number to `count`. -/
def takeRun (o : Operator) (count : Nat) (ts : TokenStream σ) : Nat × TokenStream σ :=
  let seen := ts.lookahead
  if h : seen.1.kind = .symbol (.operator o) then
    have := size_next_lt_of_symbol h
    takeRun o (count + 1) seen.2.next.2
  else (count, seen.2)
termination_by ts.size

theorem size_takeRun (o : Operator) (count : Nat) (ts : TokenStream σ) :
    (ts.takeRun o count).2.size ≤ ts.size := by
  fun_induction takeRun o count ts with
  | case1 count ts seen h hlt ih =>
    simp only [seen, next_lookahead] at ih ⊢
    exact Nat.le_of_lt (Nat.lt_of_le_of_lt ih hlt)
  | case2 count ts seen h => exact size_lookahead ts

theorem takeRun_of_operator {o : Operator} {count : Nat} {ts : TokenStream σ}
    (h : ts.lookahead.1.kind = .symbol (.operator o)) :
    ts.takeRun o count = ts.next.2.takeRun o (count + 1) := by
  rw [takeRun, dif_pos h, next_lookahead]

theorem takeRun_of_other {o : Operator} {count : Nat} {ts : TokenStream σ}
    (h : ts.lookahead.1.kind ≠ .symbol (.operator o)) :
    ts.takeRun o count = (count, ts.lookahead.2) := by
  rw [takeRun, dif_neg h]

/-- One statement that is no loop, with its run if it is counted. -/
def parseSingle (ts : TokenStream σ) : Except ParseError Statement × TokenStream σ :=
  let taken := ts.next
  match taken.1.kind with
  | .symbol .dot => (.ok .print, taken.2)
  | .symbol .comma => (.ok .input, taken.2)
  | .symbol (.operator o) =>
    let run := takeRun o 1 taken.2
    (.ok (.counted o run.1), run.2)
  | _ => (.error (.unexpectedToken taken.1), taken.2)

theorem size_parseSingle (ts : TokenStream σ) : ts.parseSingle.2.size ≤ ts.size := by
  have := size_next ts
  unfold parseSingle
  simp only
  split
  · exact this
  · exact this
  · exact Nat.le_trans (size_takeRun ..) this
  · exact this

theorem size_lt_of_parseSingle {ts after : TokenStream σ} {s : Statement}
    (h : ts.parseSingle = (.ok s, after)) : after.size < ts.size := by
  have hk : ts.next.1.kind ≠ .endOfFile := fun hk => by simp [parseSingle, hk] at h
  have hlt : ts.next.2.size < ts.size :=
    size_next_lt (by simpa [Token.isEnd, ← next_fst] using hk)
  unfold parseSingle at h
  simp only at h
  split at h <;> cases h
  · exact hlt
  · exact hlt
  · exact Nat.lt_of_le_of_lt (size_takeRun ..) hlt

/-! ## Loops -/

/-- Parses on inside `inner` until the loops around it, the nearest first, are closed as well. -/
def parseBody (inner : OpenLoop) (outer : List OpenLoop) (ts : TokenStream σ) :
    Except ParseError Statement × TokenStream σ :=
  let seen := ts.lookahead
  match h : seen.1.kind with
  | .symbol .rightBracket =>
    have := size_next_lt_of_symbol h
    let left := seen.2.next.2.record (.leavingLoop seen.1.span inner.statements.length)
    match outer with
    | [] => (.ok inner.close, left)
    | around :: outer => parseBody (around.push inner.close) outer left
  | .endOfFile => (.error (.unterminatedLoop inner.openedAt seen.1.span), seen.2)
  | .symbol .leftBracket =>
    have := size_next_lt_of_symbol h
    parseBody (.opened seen.1.span) (inner :: outer)
      (seen.2.next.2.record (.enteringLoop seen.1.span))
  | _ =>
    match hs : seen.2.parseSingle with
    | (.ok s, after) =>
      have := size_lt_of_parseSingle hs
      have := size_lookahead ts
      parseBody (inner.push s) outer after
    | (.error e, after) => (.error e, after)
termination_by ts.size
decreasing_by all_goals simp [seen] at *; omega

theorem size_parseBody (inner : OpenLoop) (outer : List OpenLoop) (ts : TokenStream σ) :
    (ts.parseBody inner outer).2.size ≤ ts.size := by
  fun_induction parseBody inner outer ts with
  | case1 inner ts seen h this left => simpa [left, seen] using size_next ts
  | case2 inner ts seen h this left around outer ih =>
    have := size_next ts
    simp_all [left, seen]
    omega
  | case3 inner outer ts => exact size_lookahead ts
  | case4 inner outer ts seen h this ih =>
    have := size_next ts
    simp_all [seen]
    omega
  | case5 inner outer ts seen s after hs hlt hle _ _ _ ih =>
    simp only [seen] at hlt
    omega
  | case6 inner outer ts seen e after hs =>
    have := size_parseSingle seen.2
    rw [hs] at this
    exact Nat.le_trans this (size_lookahead ts)

/-! ### One token at a time -/

section Body

variable {ts : TokenStream σ} {inner : OpenLoop} {outer : List OpenLoop}

theorem parseBody_of_close_last (h : ts.lookahead.1.kind = .symbol .rightBracket) :
    ts.parseBody inner [] = (.ok inner.close,
      ts.next.2.record (.leavingLoop ts.lookahead.1.span inner.statements.length)) := by
  rw [parseBody]
  split <;> simp_all

theorem parseBody_of_close {around : OpenLoop} (h : ts.lookahead.1.kind = .symbol .rightBracket) :
    ts.parseBody inner (around :: outer) =
      (ts.next.2.record (.leavingLoop ts.lookahead.1.span inner.statements.length)).parseBody
        (around.push inner.close) outer := by
  rw [parseBody]
  split <;> simp_all

theorem parseBody_of_end (h : ts.lookahead.1.kind = .endOfFile) :
    ts.parseBody inner outer =
      (.error (.unterminatedLoop inner.openedAt ts.lookahead.1.span), ts.lookahead.2) := by
  rw [parseBody]
  split <;> simp_all

theorem parseBody_of_open (h : ts.lookahead.1.kind = .symbol .leftBracket) :
    ts.parseBody inner outer =
      (ts.next.2.record (.enteringLoop ts.lookahead.1.span)).parseBody
        (.opened ts.lookahead.1.span) (inner :: outer) := by
  rw [parseBody]
  split <;> simp_all

theorem parseBody_of_other (hr : ts.lookahead.1.kind ≠ .symbol .rightBracket)
    (he : ts.lookahead.1.kind ≠ .endOfFile) (hl : ts.lookahead.1.kind ≠ .symbol .leftBracket) :
    ts.parseBody inner outer =
      match ts.lookahead.2.parseSingle with
      | (.ok s, after) => after.parseBody (inner.push s) outer
      | (.error e, after) => (.error e, after) := by
  rw [parseBody]
  split
  · contradiction
  · contradiction
  · contradiction
  · split <;> simp_all

end Body

/-- The loop whose opening bracket is the next token. -/
def parseOpened (ts : TokenStream σ) (_ : ts.lookahead.1.kind = .symbol .leftBracket) :
    Except ParseError Statement × TokenStream σ :=
  let taken := ts.next
  parseBody (.opened taken.1.span) [] (taken.2.record (.enteringLoop taken.1.span))

theorem size_parseOpened (ts : TokenStream σ) (h : ts.lookahead.1.kind = .symbol .leftBracket) :
    (ts.parseOpened h).2.size ≤ ts.next.2.size :=
  size_parseBody ..

/-- A whole loop. The first token is taken even if it opens none. -/
def parseLoop (ts : TokenStream σ) : Except LoopError Statement × TokenStream σ :=
  let seen := ts.lookahead
  if h : seen.1.kind = .symbol .leftBracket then
    let parsed := seen.2.parseOpened (by rwa [lookahead_lookahead])
    (parsed.1.mapError .body, parsed.2)
  else (.error (.notOpened seen.1.kind), seen.2.next.2)

/-! ## Whole programs -/

/-- One statement, a loop if its bracket comes next. -/
def parseStatement (ts : TokenStream σ) : Except ParseError Statement × TokenStream σ :=
  let seen := ts.lookahead
  if h : seen.1.kind = .symbol .leftBracket then seen.2.parseOpened (by rwa [lookahead_lookahead])
  else seen.2.parseSingle

theorem size_lt_of_parseStatement {ts after : TokenStream σ} {s : Statement}
    (h : ts.parseStatement = (.ok s, after)) : after.size < ts.size := by
  have hl := size_lookahead ts
  unfold parseStatement at h
  simp only at h
  split at h
  · rename_i hk
    have ho := size_parseOpened ts.lookahead.2 (by rwa [lookahead_lookahead])
    rw [h, next_lookahead] at ho
    exact Nat.lt_of_le_of_lt ho (size_next_lt_of_symbol hk)
  · exact Nat.lt_of_lt_of_le (size_lt_of_parseSingle h) hl

/-- The statements up to the end of the source, after those in `done`, the latest first. -/
def parseStatements (done : List Statement) (ts : TokenStream σ) :
    Except ParseError Program × TokenStream σ :=
  let seen := ts.lookahead
  if seen.1.isEnd then (.ok done.reverse, seen.2)
  else
    match h : seen.2.parseStatement with
    | (.ok s, after) =>
      have : after.size < ts.size :=
        Nat.lt_of_lt_of_le (size_lt_of_parseStatement h) (size_lookahead ts)
      parseStatements (s :: done) after
    | (.error e, after) => (.error e, after)
termination_by ts.size

theorem parseStatements_of_end {done : List Statement} {ts : TokenStream σ}
    (h : ts.lookahead.1.isEnd = true) :
    ts.parseStatements done = (.ok done.reverse, ts.lookahead.2) := by
  rw [parseStatements, if_pos h]

theorem parseStatements_of_more {done : List Statement} {ts : TokenStream σ}
    (h : ts.lookahead.1.isEnd = false) :
    ts.parseStatements done =
      match ts.lookahead.2.parseStatement with
      | (.ok s, after) => after.parseStatements (s :: done)
      | (.error e, after) => (.error e, after) := by
  rw [parseStatements, if_neg (by simp [h])]
  split <;> simp_all

/-- A whole program. An error throws away what was parsed before it. -/
def parseProgram (ts : TokenStream σ) : Except ParseError Program × TokenStream σ :=
  match ts.parseStatements [] with
  | (.ok p, after) => (.ok p, after.record (.parsedProgram p.length (Program.depth p)))
  | (.error e, after) => (.error e, after)

end TokenStream

/-- The program that a text holds. -/
def parse (text : String) : Except ParseError Program :=
  (TokenStream.ofSource (TextSource.ofText text)).parseProgram.1

end Brainfuck
