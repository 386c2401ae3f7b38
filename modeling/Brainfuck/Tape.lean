import Std.Data.ExtTreeMap

/-!
# The tape

A tape of byte cells without an end on either side. Every cell is 0 until it is written, and the
tape knows which cells have been written.
-/

namespace Brainfuck

structure Tape where
  /-- The cells that have been written. -/
  cells : Std.ExtTreeMap Int UInt8

namespace Tape

def empty : Tape := ⟨∅⟩

def get (t : Tape) (i : Int) : UInt8 := t.cells.getD i 0

def set (t : Tape) (i : Int) (v : UInt8) : Tape := ⟨t.cells.insert i v⟩

/-- Counts the cell as written, with the value it has. -/
def touch (t : Tape) (i : Int) : Tape := t.set i (t.get i)

/-- The number of cells that have been written. -/
def touched (t : Tape) : Nat := t.cells.size

theorem ext_getElem? {t t' : Tape} (h : ∀ i : Int, t.cells[i]? = t'.cells[i]?) : t = t' :=
  congrArg mk (Std.ExtTreeMap.ext_getElem? h)

theorem get_empty (i : Int) : empty.get i = 0 := by
  simp [empty, get]

theorem get_set (t : Tape) (i j : Int) (v : UInt8) :
    (t.set i v).get j = if i = j then v else t.get j := by
  simp [set, get, Std.ExtTreeMap.getD_insert]

theorem mem_cells_set {t : Tape} {i j : Int} {v : UInt8} :
    j ∈ (t.set i v).cells ↔ i = j ∨ j ∈ t.cells := by
  simp [set, Std.ExtTreeMap.mem_insert]

@[simp] theorem get_touch (t : Tape) (i j : Int) : (t.touch i).get j = t.get j := by
  rw [touch, get_set]
  split
  · rename_i h
    rw [h]
  · rfl

end Tape

end Brainfuck
