import Brainfuck.Program.Parser
import Brainfuck.Proofs.Placed

/-!
# Drafts

A program put together one symbol at a time, with no lookahead. An operator joins the run before it,
an opening bracket starts a block and a closing bracket ends the innermost one. The parser, which
takes a run at once and looks one token ahead, builds the same programs and meets the same errors.
-/

namespace Brainfuck

structure Draft where
  /-- The loops that are open, the innermost first. -/
  loops : List OpenLoop
  /-- The statements before them, the latest first. -/
  done : List Statement

namespace Draft

def empty : Draft := ⟨[], []⟩

/-- The statements of the innermost block so far, the latest first. -/
def block (d : Draft) : List Statement :=
  match d.loops with
  | [] => d.done
  | l :: _ => l.statements

def withBlock (d : Draft) (block : List Statement) : Draft :=
  match d.loops with
  | [] => { d with done := block }
  | l :: outer => { d with loops := { l with statements := block } :: outer }

def push (d : Draft) (s : Statement) : Draft := d.withBlock (s :: d.block)

/-- The block with one more operator at its end. -/
def joined (o : Operator) : List Statement → List Statement
  | .counted p n :: before => if p = o then .counted o (n + 1) :: before
      else .counted o 1 :: .counted p n :: before
  | before => .counted o 1 :: before

/-- The draft after one more symbol. A closing bracket needs an open loop. -/
def put (d : Draft) (p : Placed) : Except Placed Draft :=
  match p.symbol with
  | .dot => .ok (d.push .print)
  | .comma => .ok (d.push .input)
  | .operator o => .ok (d.withBlock (joined o d.block))
  | .leftBracket => .ok { d with loops := .opened p.span :: d.loops }
  | .rightBracket =>
    match d.loops with
    | [] => .error p
    | l :: outer => .ok ({ d with loops := outer }.push l.close)

def putAll (d : Draft) : List Placed → Except Placed Draft
  | [] => .ok d
  | p :: ps =>
    match d.put p with
    | .ok next => next.putAll ps
    | .error stray => .error stray

/-- The program of a draft in which no loop is open, at the end of a source of `finish` characters. -/
def toProgram (d : Draft) (finish : Nat) : Except ParseError Program :=
  match d.loops with
  | [] => .ok d.done.reverse
  | l :: _ => .error (.unterminatedLoop l.openedAt (.point finish))

/-- What becomes of a draft when these are the symbols left. -/
def complete (d : Draft) (ps : List Placed) (finish : Nat) : Except ParseError Program :=
  match d.putAll ps with
  | .ok last => last.toProgram finish
  | .error stray => .error (.unexpectedToken stray.token)

/-! ## Blocks -/

@[simp] theorem block_withBlock (d : Draft) (b : List Statement) : (d.withBlock b).block = b := by
  rcases d with ⟨_ | ⟨l, outer⟩, done⟩ <;> rfl

@[simp] theorem withBlock_withBlock (d : Draft) (b c : List Statement) :
    (d.withBlock b).withBlock c = d.withBlock c := by
  rcases d with ⟨_ | ⟨l, outer⟩, done⟩ <;> rfl

@[simp] theorem withBlock_block (d : Draft) : d.withBlock d.block = d := by
  rcases d with ⟨_ | ⟨l, outer⟩, done⟩ <;> rfl

@[simp] theorem block_push (d : Draft) (s : Statement) : (d.push s).block = s :: d.block :=
  block_withBlock ..

/-! ## Symbol after symbol -/

theorem putAll_cons_of_ok {d next : Draft} {p : Placed} (h : d.put p = .ok next)
    (ps : List Placed) : d.putAll (p :: ps) = next.putAll ps := by
  rw [putAll, h]

theorem putAll_cons_of_error {d : Draft} {p stray : Placed} (h : d.put p = .error stray)
    (ps : List Placed) : d.putAll (p :: ps) = .error stray := by
  rw [putAll, h]

theorem putAll_append_of_ok {d next : Draft} {ps : List Placed} (h : d.putAll ps = .ok next)
    (more : List Placed) : d.putAll (ps ++ more) = next.putAll more := by
  induction ps generalizing d with
  | nil =>
    cases h
    rfl
  | cons p ps ih =>
    cases hp : d.put p with
    | error stray =>
      rw [putAll_cons_of_error hp] at h
      contradiction
    | ok middle =>
      rw [putAll_cons_of_ok hp] at h
      rw [List.cons_append, putAll_cons_of_ok hp, ih h]

theorem complete_append_of_ok {d next : Draft} {ps : List Placed} (h : d.putAll ps = .ok next)
    (more : List Placed) (finish : Nat) :
    d.complete (ps ++ more) finish = next.complete more finish := by
  rw [complete, putAll_append_of_ok h, complete]

theorem put_operator {d : Draft} {p : Placed} {o : Operator} (h : p.symbol = .operator o) :
    d.put p = .ok (d.withBlock (joined o d.block)) := by
  simp [put, h]

theorem put_leftBracket {d : Draft} {p : Placed} (h : p.symbol = .leftBracket) :
    d.put p = .ok { d with loops := .opened p.span :: d.loops } := by
  simp [put, h]

theorem put_rightBracket {d : Draft} {p : Placed} {l : OpenLoop} {outer : List OpenLoop}
    (h : p.symbol = .rightBracket) (hl : d.loops = l :: outer) :
    d.put p = .ok ({ d with loops := outer }.push l.close) := by
  simp [put, h, hl]

theorem put_stray {d : Draft} {p : Placed} (h : p.symbol = .rightBracket) (hl : d.loops = []) :
    d.put p = .error p := by
  simp [put, h, hl]

/-! ## Runs -/

def lastOperator? : List Statement → Option Operator
  | .counted o _ :: _ => some o
  | _ => none

theorem joined_of_ne {o : Operator} {b : List Statement} (h : lastOperator? b ≠ some o) :
    joined o b = .counted o 1 :: b := by
  rcases b with _ | ⟨_ | _ | ⟨p, n⟩ | _, b⟩
  · rfl
  · rfl
  · rfl
  · have hp : p ≠ o := by simpa [lastOperator?] using h
    rw [joined, if_neg hp]
  · rfl

theorem putAll_run {o : Operator} {ps : List Placed} (h : ∀ p ∈ ps, p.symbol = .operator o)
    (d : Draft) (b : List Statement) (n : Nat) :
    (d.withBlock (.counted o n :: b)).putAll ps =
      .ok (d.withBlock (.counted o (n + ps.length) :: b)) := by
  induction ps generalizing n with
  | nil => rfl
  | cons p ps ih =>
    rw [putAll_cons_of_ok (put_operator (h p List.mem_cons_self)), block_withBlock,
      withBlock_withBlock, joined, if_pos rfl, ih fun q hq => h q (List.mem_cons_of_mem _ hq)]
    congr 4
    rw [List.length_cons]
    omega

theorem putAll_new_run {d : Draft} {p : Placed} {o : Operator} {ps : List Placed}
    (hd : lastOperator? d.block ≠ some o) (hp : p.symbol = .operator o)
    (h : ∀ q ∈ ps, q.symbol = .operator o) :
    d.putAll (p :: ps) = .ok (d.push (.counted o (1 + ps.length))) := by
  rw [putAll_cons_of_ok (put_operator hp), joined_of_ne hd, putAll_run h, push]

end Draft

end Brainfuck
