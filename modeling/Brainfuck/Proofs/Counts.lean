import Brainfuck.Proofs.Folding

/-!
# Counts

What holds of the count of every run in a program, at every depth.
-/

namespace Brainfuck

mutual

def Statement.EveryCount (P : Nat → Prop) : Statement → Prop
  | .counted _ count => P count
  | .loop body => Program.EveryCount P body
  | .print | .input => True

def Program.EveryCount (P : Nat → Prop) : Program → Prop
  | [] => True
  | s :: rest => s.EveryCount P ∧ Program.EveryCount P rest

end

namespace Program

variable {P Q : Nat → Prop} {p q : Program}

theorem everyCount_append : EveryCount P (p ++ q) ↔ EveryCount P p ∧ EveryCount P q := by
  induction p with
  | nil => simp [EveryCount]
  | cons s p ih => rw [List.cons_append, EveryCount, EveryCount, ih, and_assoc]

end Program

mutual

theorem Statement.EveryCount.mono {P Q : Nat → Prop} (hPQ : ∀ n, P n → Q n) {s : Statement}
    (h : s.EveryCount P) : s.EveryCount Q := by
  cases s with
  | print => trivial
  | input => trivial
  | counted o n => exact hPQ n h
  | loop body => exact Program.EveryCount.mono hPQ h

theorem Program.EveryCount.mono {P Q : Nat → Prop} (hPQ : ∀ n, P n → Q n) {p : Program}
    (h : Program.EveryCount P p) : Program.EveryCount Q p := by
  cases p with
  | nil => trivial
  | cons s rest => exact ⟨Statement.EveryCount.mono hPQ h.1, Program.EveryCount.mono hPQ h.2⟩

end

/-! ## The counts of a folded program -/

variable {N : Nat}

mutual

theorem Statement.everyCount_of_folded (s : Statement) (hs : s.Folded)
    (hlen : s.symbols.length ≤ N) : s.EveryCount fun n => 1 ≤ n ∧ n ≤ N := by
  cases s with
  | print => trivial
  | input => trivial
  | counted o n =>
    rw [Statement.symbols, List.length_replicate] at hlen
    exact ⟨hs, hlen⟩
  | loop body =>
    rw [Statement.symbols, List.length_cons, List.length_append] at hlen
    exact Program.everyCount_of_folded body hs (by omega)

theorem Program.everyCount_of_folded (p : Program) (hp : Program.Folded p)
    (hlen : (Program.symbols p).length ≤ N) :
    Program.EveryCount (fun n => 1 ≤ n ∧ n ≤ N) p := by
  cases p with
  | nil => trivial
  | cons s rest =>
    obtain ⟨hs, -, hrest⟩ := hp
    rw [Program.symbols, List.length_append] at hlen
    exact ⟨Statement.everyCount_of_folded s hs (by omega),
      Program.everyCount_of_folded rest hrest (by omega)⟩

end

theorem everyCount_of_parse {text : String} {p : Program} (hlen : text.length ≤ N)
    (h : parse text = .ok p) : Program.EveryCount (fun n => 1 ≤ n ∧ n ≤ N) p := by
  obtain ⟨hsymbols, hfolded⟩ := (parse_eq_ok_iff_symbols text p).1 h
  apply Program.everyCount_of_folded p hfolded
  have hfilter := List.length_filterMap_le Symbol.ofChar? text.toList
  rw [hsymbols]
  rw [String.length_toList] at hfilter
  omega

end Brainfuck
