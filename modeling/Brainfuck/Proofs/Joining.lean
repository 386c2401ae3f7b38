import Brainfuck.Proofs.Folding

/-!
# Joining programs

Of two texts one behind the other the parser makes the two programs one behind the other, only that
a run at the end of the one and a run of the same operator at the start of the other become one.
-/

namespace Brainfuck

namespace Program

/-- Puts a statement in front. A run in front of a run of the same operator makes it longer. -/
def prepend : Statement → Program → Program
  | .counted o n, .counted o' k :: rest =>
    if o = o' then .counted o (n + k) :: rest else .counted o n :: .counted o' k :: rest
  | s, rest => s :: rest

/-- The one program and then the other, with all runs of one operator that meet made one. -/
def joined (p q : Program) : Program := p.foldr prepend q

theorem symbols_prepend (s : Statement) (p : Program) :
    symbols (prepend s p) = s.symbols ++ symbols p := by
  unfold prepend
  split
  · rename_i o n o' k rest
    split
    · rename_i ho
      rw [ho]
      simp only [symbols, Statement.symbols]
      rw [← List.replicate_append_replicate, List.append_assoc]
    · rfl
  · rfl

theorem symbols_joined (p q : Program) : symbols (joined p q) = symbols p ++ symbols q := by
  unfold joined
  induction p with
  | nil => rfl
  | cons s p ih => rw [List.foldr_cons, symbols_prepend, ih, symbols, List.append_assoc]

theorem folded_prepend {s : Statement} {p : Program} (hs : s.Folded) (hp : Folded p) :
    Folded (prepend s p) := by
  unfold prepend
  split
  · rename_i o n o' k rest
    obtain ⟨hk, hapart, hrest⟩ := hp
    split
    · rename_i ho
      -- The longer run is as far apart from what is behind it as the other was.
      refine ⟨Nat.le_add_right_of_le hs, fun t ht => ?_, hrest⟩
      have := hapart t ht
      cases t <;> first | trivial | exact ho ▸ this
    · rename_i ho
      refine ⟨hs, ?_, hk, hapart, hrest⟩
      rintro t ⟨⟩
      exact ho
  · rename_i hmeet
    refine ⟨hs, fun t ht => ?_, hp⟩
    obtain ⟨rest, rfl⟩ := List.head?_eq_some_iff.1 ht
    cases s <;> cases t <;> first | trivial | exact absurd rfl (hmeet _ _ _ _ _ rfl)

theorem folded_joined {p q : Program} (hp : ∀ s ∈ p, s.Folded) (hq : Folded q) :
    Folded (joined p q) := by
  unfold joined
  induction p with
  | nil => exact hq
  | cons s p ih =>
    obtain ⟨hs, hp⟩ := List.forall_mem_cons.1 hp
    exact folded_prepend hs (ih hp)

end Program

theorem parse_append {a b : String} {p q : Program} (ha : parse a = .ok p) (hb : parse b = .ok q) :
    parse (a ++ b) = .ok (Program.joined p q) := by
  rw [parse_eq_ok_iff_symbols] at ha hb ⊢
  obtain ⟨hp, hfolded⟩ := ha
  obtain ⟨hq, hq'⟩ := hb
  constructor
  · rw [Program.symbols_joined, hp, hq, String.toList_append, List.filterMap_append]
  · exact Program.folded_joined ((Program.folded_iff_isChain p).1 hfolded).1 hq'

end Brainfuck
