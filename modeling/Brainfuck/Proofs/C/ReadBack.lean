import Brainfuck.Proofs.C.Listing

/-!
# Programs from their listings

A listing is read back into the program that it lists, whether it is whole or not. So two programs
never have the same listing.
-/

namespace Brainfuck.C

def operator : Target → Sign → Operator
  | .current, .minus => .shiftLeft
  | .current, .plus => .shiftRight
  | .cell, .plus => .increment
  | .cell, .minus => .decrement

mutual

/-- The statement that this one was translated from. -/
def toStatement? : Statement → Option Brainfuck.Statement
  | .putchar => some .print
  | .getchar => some .input
  | .change target sign count => some (.counted (operator target sign) count)
  | .loop body => (toProgram? body).map .loop
  | .finish => none

def toProgram? : List Statement → Option Program
  | [] => some []
  | s :: rest =>
    match toStatement? s, toProgram? rest with
    | some s, some rest => some (s :: rest)
    | _, _ => none

end

/-- The program that a whole listing was made from, with its size of `memory`. -/
def TranslationUnit.toProgram? (unit : TranslationUnit) : Option (Program × Nat) :=
  match unit.main.reverse with
  | .finish :: before => (C.toProgram? before.reverse).map (·, unit.memorySize)
  | _ => none

/-- Reads the statements that stand by themselves in a text. -/
def statements? (text : String) : Option (List Statement) :=
  (clauses? text.toList).bind fun clauses => block? [] [] (clauses ++ [.blockEnd])

/-- Reads a listing: the program, and the size of `memory` if the listing is whole. -/
def readBack? (text : String) : Option (Program × Option Nat) :=
  match TranslationUnit.read? text with
  | some unit => unit.toProgram?.map fun (p, size) => (p, some size)
  | none => ((statements? text).bind toProgram?).map (·, none)

/-! ## Statements -/

@[simp] theorem operator_target_sign (o : Operator) : operator (target o) (sign o) = o := by
  cases o <;> rfl

mutual

theorem toStatement?_ofStatement (s : Brainfuck.Statement) :
    toStatement? (ofStatement s) = some s := by
  cases s with
  | print => rfl
  | input => rfl
  | counted o n => rw [ofStatement, toStatement?, operator_target_sign]
  | loop body =>
    rw [ofStatement, toStatement?, toProgram?_ofProgram body]
    rfl

theorem toProgram?_ofProgram (p : Program) : toProgram? (ofProgram p) = some p := by
  cases p with
  | nil => rfl
  | cons s rest =>
    rw [ofProgram, toProgram?, toStatement?_ofStatement s, toProgram?_ofProgram rest]

end

/-! ## Listings -/

theorem clauses?_listing (p : Program) :
    clauses? p.listing.toList = some ((p.codeLines 0).map fun l => ofLine l.line) := by
  refine Reads.clauses?_eq ?_
  rw [Program.listing, Listing.text_load]
  exact reads_lines (p.codeLines 0)

theorem statements?_listing (p : Program) : statements? p.listing = some (ofProgram p) := by
  rw [statements?, clauses?_listing, Option.bind_some, block?_codeLines]
  simp [block?]

/-- A listing that is not whole has no declarations. -/
theorem read?_listing (p : Program) : TranslationUnit.read? p.listing = none := by
  rw [TranslationUnit.read?, clauses?_listing]
  cases p with
  | nil => rfl
  | cons s rest => cases s <;> rfl

theorem readBack?_listing (p : Program) : readBack? p.listing = some (p, none) := by
  rw [readBack?, read?_listing]
  simp only [statements?_listing, Option.bind_some, toProgram?_ofProgram, Option.map_some]

theorem readBack?_wholeListing (p : Program) (memorySize : Nat) :
    readBack? (p.wholeListing memorySize) = some (p, some memorySize) := by
  rw [readBack?, read?_wholeListing]
  simp [TranslationUnit.toProgram?, toProgram?_ofProgram]

/-- No two programs have the same listing. -/
theorem listings_read_back :
    (∀ p : Program, readBack? p.listing = some (p, none)) ∧
    (∀ (p : Program) (m : Nat), readBack? (p.wholeListing m) = some (p, some m)) ∧
    (∀ p q : Program, p.listing = q.listing ↔ p = q) ∧
    ∀ (p q : Program) (m k : Nat), p.wholeListing m = q.wholeListing k ↔ p = q ∧ m = k := by
  refine ⟨readBack?_listing, readBack?_wholeListing, fun p q => ⟨fun h => ?_, ?_⟩,
    fun p q m k => ⟨fun h => ?_, ?_⟩⟩
  · have hp := readBack?_listing p
    rw [h, readBack?_listing q] at hp
    cases hp
    rfl
  · rintro rfl
    rfl
  · have hp := readBack?_wholeListing p m
    rw [h, readBack?_wholeListing q k] at hp
    cases hp
    exact ⟨rfl, rfl⟩
  · rintro ⟨rfl, rfl⟩
    rfl

end Brainfuck.C
