import Brainfuck.Progress
import Brainfuck.Proofs.ProgramText
import Brainfuck.Proofs.Repetition

/-!
# Running a text

The plain reading of a program: a counter goes through its text one character at a time, and a
bracket sends it to the other one of its pair.
-/

namespace Brainfuck

structure TextRun where
  /-- The place of the next character. -/
  counter : Nat
  machine : Machine

namespace TextRun

/-- The place of the bracket that closes the one at `j`, or `j` if none does. -/
def closing (text : List Char) (j : Nat) : Nat :=
  ((List.range text.length).find? fun k => decide (Matches text j k)).getD j

/-- The place of the bracket that the one at `k` closes, or just behind `k` if there is none. -/
def opening (text : List Char) (k : Nat) : Nat :=
  ((List.range text.length).find? fun j => decide (Matches text j k)).getD (k + 1)

def advance (r : TextRun) :
    Except Fault Unit × Machine → Progress TextRun (Except Fault Unit × Machine)
  | (.ok (), m) => .running ⟨r.counter + 1, m⟩
  | (.error e, m) => .stopped (.error e, m)

def obey (text : List Char) (r : TextRun) :
    Symbol → Progress TextRun (Except Fault Unit × Machine)
  | .dot => r.advance r.machine.write
  | .comma => r.advance r.machine.read
  | .operator o => r.advance (r.machine.once o)
  | .leftBracket =>
    if r.machine.isZero then .running ⟨closing text r.counter + 1, r.machine⟩
    else .running ⟨r.counter + 1, r.machine⟩
  | .rightBracket => .running ⟨opening text r.counter, r.machine⟩

/-- At the end of the text the output is flushed. Comments are passed over. -/
def step (text : List Char) (r : TextRun) : Progress TextRun (Except Fault Unit × Machine) :=
  match text[r.counter]? with
  | none => .stopped r.machine.flush
  | some c =>
    match Symbol.ofChar? c with
    | some s => r.obey text s
    | none => .running ⟨r.counter + 1, r.machine⟩

/-! ## One character -/

theorem step_of_end (text : List Char) (m : Machine) :
    step text ⟨text.length, m⟩ = .stopped m.flush := by
  simp [step]

theorem step_of_symbol {text u v : List Char} {s : Symbol} (h : text = u ++ s.toChar :: v)
    (m : Machine) : step text ⟨u.length, m⟩ = obey text ⟨u.length, m⟩ s := by
  have hc : text[u.length]? = some s.toChar := by simp [h]
  simp only [step, hc, Symbol.ofChar?_toChar]

theorem find?_range_eq_some {n k : Nat} {p : Nat → Bool} (hk : k < n) (hp : p k = true)
    (hunique : ∀ i, p i = true → i = k) : (List.range n).find? p = some k := by
  cases h : (List.range n).find? p with
  | none => exact absurd hp (by simpa using List.find?_eq_none.1 h k (List.mem_range.2 hk))
  | some i => rw [hunique i (List.find?_some h)]

theorem closing_eq {text : List Char} {j k : Nat} (h : Matches text j k) : closing text j = k := by
  have hk : k < text.length := (List.getElem?_eq_some_iff.1 h.closes).1
  rw [closing, find?_range_eq_some hk (by simpa using h) fun i hi =>
    Matches.closing_unique (by simpa using hi) h]
  rfl

theorem opening_eq {text : List Char} {j k : Nat} (h : Matches text j k) : opening text k = j := by
  have hj : j < text.length := (List.getElem?_eq_some_iff.1 h.opens).1
  rw [opening, find?_range_eq_some hj (by simpa using h) fun i hi =>
    Matches.opening_unique (by simpa using hi) h]
  rfl

end TextRun

/-! ## Runs of one operator -/

namespace TextRun

open Progress

theorem follow_times {text v : List Char} {o : Operator} (n : Nat) (u : List Char)
    (h : text = u ++ (Statement.counted o n).chars ++ v) (m : Machine) :
    follow (step text) n ⟨u.length, m⟩ = match m.times o n with
      | (.ok (), m') => .running ⟨u.length + n, m'⟩
      | (.error e, m') => .stopped (.error e, m') := by
  rw [Statement.chars_counted] at h
  induction n generalizing u m with
  | zero => rfl
  | succ n ih =>
    have hstep : step text ⟨u.length, m⟩ = advance ⟨u.length, m⟩ (m.once o) :=
      step_of_symbol (s := .operator o) (by simpa [List.replicate_succ] using h) m
    have htail : text = (u ++ [(Symbol.operator o).toChar]) ++
        List.replicate n (Symbol.operator o).toChar ++ v := by
      simpa [List.replicate_succ] using h
    rcases honce : m.once o with ⟨_ | ⟨⟩, m'⟩
    · rw [honce, advance] at hstep
      rw [follow_succ_of_stopped hstep, Machine.times, honce]
    · rw [honce, advance] at hstep
      rw [follow_succ_of_running hstep, Machine.times_of_ok honce]
      have := ih _ htail m'
      rw [List.length_append, List.length_singleton] at this
      rw [this, Nat.add_assoc, Nat.add_comm 1]

end TextRun

end Brainfuck
