import Brainfuck.Overflow

/-!
# Spans

A span is a range of offsets into the source, written `start..stop`, with `stop` left out.
-/

namespace Brainfuck

structure Span where
  start : Nat
  stop : Nat
deriving DecidableEq, Repr

namespace Span

/-- The empty span at an offset. -/
def point (offset : Nat) : Span := ⟨offset, offset⟩

/-- The span of the character that ends at `stop`. No character ends at the very start. -/
def endingAt (stop : Nat) (_ : 0 < stop) : Span := ⟨stop - 1, stop⟩

def text (s : Span) : String := s!"{s.start}..{s.stop}"

def isEmpty (s : Span) : Bool := s.start == s.stop

/-- The width of a span, refused when the span runs backwards. -/
def length (s : Span) : Except Overflow Nat :=
  if s.stop < s.start then .error .subtract else .ok (s.stop - s.start)

/-- Bounds that run backwards. -/
structure Reversed where
  start : Nat
  stop : Nat
deriving DecidableEq, Repr

def Reversed.message (r : Reversed) : String :=
  s!"span begins after it ends ({r.start}..{r.stop})"

/-- The span with these bounds, refused when they run backwards. -/
def between (start stop : Nat) : Except Reversed Span :=
  if stop < start then .error ⟨start, stop⟩ else .ok ⟨start, stop⟩

theorem between_eq_ok_iff {start stop : Nat} {s : Span} :
    between start stop = .ok s ↔ start ≤ stop ∧ s = ⟨start, stop⟩ := by
  unfold between
  split
  · simp; omega
  · simp [eq_comm]; omega

/-- The span of a character is never refused. -/
theorem between_endingAt {n : Nat} (h : 0 < n) : between (n - 1) n = .ok (endingAt n h) :=
  between_eq_ok_iff.2 ⟨Nat.sub_le n 1, rfl⟩

theorem length_endingAt {n : Nat} (h : 0 < n) : (endingAt n h).length = .ok 1 := by
  unfold length endingAt
  rw [if_neg (by simp)]
  congr 1
  simp only
  omega

end Span

end Brainfuck
