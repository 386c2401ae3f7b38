/-!
# Sets of code points

A set is a list of ranges in ascending order, each with its first and its last code point.
-/

namespace Brainfuck.Text

abbrev CodePoints := List (Nat × Nat)

namespace CodePoints

def contains (ranges : CodePoints) (c : Char) : Bool :=
  ranges.any fun range => range.1 ≤ c.toNat && c.toNat ≤ range.2

/-- Each range runs upwards, and the next one begins above it. -/
def ascending : CodePoints → Bool
  | [] => true
  | [(first, last)] => first ≤ last
  | (first, last) :: (next, stop) :: rest =>
    first ≤ last && last < next && ascending ((next, stop) :: rest)

end CodePoints

end Brainfuck.Text
