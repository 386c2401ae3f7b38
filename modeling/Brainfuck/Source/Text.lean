import Brainfuck.Source

/-!
# Text in memory

A source over a text, one character at a time.
-/

namespace Brainfuck

structure TextSource where
  /-- The characters not supplied yet. -/
  chars : List Char
  position : Nat
deriving DecidableEq, Repr

namespace TextSource

def ofText (text : String) : TextSource := ⟨text.toList, 0⟩

def supply (s : TextSource) : Supply × TextSource :=
  match s.chars with
  | [] => (.ended, s)
  | c :: chars => (.char c, ⟨chars, s.position + 1⟩)

instance : Source TextSource where
  supply := supply
  position := position
  rest := chars
  rest_of_char {s c} h := by
    rcases s with ⟨_ | ⟨d, chars⟩, n⟩ <;> simp_all [supply, Supply.char?]
  rest_of_end {s} h := by
    rcases s with ⟨_ | ⟨d, chars⟩, n⟩ <;> simp_all [supply, Supply.char?]
  rest_after_end {s} h := by
    rcases s with ⟨_ | ⟨d, chars⟩, n⟩ <;> simp_all [supply, Supply.char?]
  position_of_char {s c} h := by
    rcases s with ⟨_ | ⟨d, chars⟩, n⟩ <;> simp_all [supply, Supply.char?]
  position_of_end {s} h := by
    rcases s with ⟨_ | ⟨d, chars⟩, n⟩ <;> simp_all [supply, Supply.char?]

end TextSource

end Brainfuck
