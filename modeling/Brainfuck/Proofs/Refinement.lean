import Brainfuck.Execution
import Brainfuck.Proofs.Counts
import Brainfuck.Proofs.Simulation
import Brainfuck.Proofs.TextRun

/-!
# A program refines its text

The run of a program and the run of its text do the same. They differ in one thing: the single
steps of a shift that leaves the word have moved the pointer before they fail.
-/

namespace Brainfuck

open Progress

/-- A count of at least 1 that fits in a signed word. -/
def ProperCount (n : Nat) : Prop := 1 ≤ n ∧ n ≤ 2 ^ 63 - 1

/-! ## Where a run is in the text -/

/-- From this place on the text goes on with these statements. A loop that has been entered goes on
at its closing bracket. -/
inductive Place (text : List Char) : Nat → Program → Prop where
  | finished : Place text text.length []
  | statement {s : Statement} {rest : Program} (u v : List Char) : text = u ++ s.chars ++ v →
      Place text (u.length + s.chars.length) rest → Place text u.length (s :: rest)
  | back {body rest : Program} (u v : List Char) : text = u ++ (Statement.loop body).chars ++ v →
      Place text (u.length + (Statement.loop body).chars.length) rest →
      Place text (u.length + 1 + (Program.chars body).length) (.loop body :: rest)

variable {text : List Char} {rest : Program}

theorem Place.block (p : Program) (u v : List Char) (h : text = u ++ Program.chars p ++ v)
    (hrest : Place text (u.length + (Program.chars p).length) rest) :
    Place text u.length (p ++ rest) := by
  induction p generalizing u with
  | nil => simpa [Program.chars, Program.symbols] using hrest
  | cons s p ih =>
    rw [Program.chars_cons] at h hrest
    refine .statement u (Program.chars p ++ v) (by simpa using h) ?_
    rw [List.length_append, ← Nat.add_assoc] at hrest
    have := ih (u ++ s.chars) (by simpa using h) (by simpa using hrest)
    rwa [List.length_append] at this

theorem Place.start (p : Program) : Place (Program.chars p) 0 p := by
  have hend : Place (Program.chars p) (0 + (Program.chars p).length) [] := by
    rw [Nat.zero_add]
    exact .finished
  simpa using Place.block p [] [] (by simp) hend

/-! ## The same end -/

/-- The console holds the calls and the output, the tape its contents and the cells that have been
touched. -/
structure SameEnd (r r' : Except Fault Unit × Machine) : Prop where
  result : r.1 = r'.1
  console : r.2.console = r'.2.console
  tape : r.2.tape = r'.2.tape
  log : r.2.log = r'.2.log
  pointer : (∀ o, r.1 ≠ .error (.overflow o)) → r.2.pointer = r'.2.pointer

theorem SameEnd.refl (r : Except Fault Unit × Machine) : SameEnd r r :=
  ⟨rfl, rfl, rfl, rfl, fun _ => rfl⟩

theorem sameEnd_overflow (o : Overflow) (m : Machine) (q : Int) :
    SameEnd (.error (.overflow o), m) (.error (.overflow o), { m with pointer := q }) :=
  ⟨rfl, rfl, rfl, rfl, fun h => absurd rfl (h o)⟩

/-! ## Step by step -/

/-- The run of a program and the run of a text are at the same point. -/
structure Level (text : List Char) (e : Execution) (r : TextRun) : Prop where
  machine : r.machine = e.machine
  place : Place text r.counter e.todo
  counts : Program.EveryCount ProperCount e.todo
  pointer : inWord e.machine.pointer

abbrev Followed (text : List Char) : Execution → TextRun → Prop :=
  Tracked Execution.step (TextRun.step text) (Level text) SameEnd

theorem followed_of_advance {e : Execution} {r : TextRun} {x : Except Fault Unit × Machine}
    (he : e.step = Execution.proceed rest x) (hr : TextRun.step text r = r.advance x)
    (hplace : Place text (r.counter + 1) rest)
    (hcounts : Program.EveryCount ProperCount rest)
    (hpointer : inWord x.2.pointer) : Followed text e r := by
  rcases x with ⟨_ | ⟨⟩, m⟩
  · exact Tracked.of_stopped he hr (.refl _)
  · exact Tracked.of_running he hr ⟨rfl, hplace, hcounts, hpointer⟩

theorem followed_counted {o : Operator} {n : Nat} {u v : List Char} {m : Machine}
    (h : text = u ++ (Statement.counted o n).chars ++ v)
    (hplace : Place text (u.length + (Statement.counted o n).chars.length) rest)
    (hcounts : Program.EveryCount ProperCount (.counted o n :: rest))
    (hpointer : inWord m.pointer) : Followed text ⟨.counted o n :: rest, m⟩ ⟨u.length, m⟩ := by
  obtain ⟨⟨hpos, hword⟩, hrest⟩ := hcounts
  have htimes := TextRun.follow_times n u h m
  have hstep : Execution.step ⟨.counted o n :: rest, m⟩ =
    Execution.proceed rest (m.apply o n) := rfl
  have hagree : Machine.Agree o n m := Machine.agree hpos (by omega) hpointer
  -- The characters do as the statement does, or one of them overflows as it would.
  rcases hagree with ⟨m', happly, hagree, hm'⟩ | ⟨q, happly, hagree⟩
  · rw [hagree] at htimes
    rw [happly] at hstep
    rw [Statement.chars_counted, List.length_replicate] at hplace
    exact Tracked.running hstep hpos htimes ⟨rfl, hplace, hrest, hm'⟩
  · rw [hagree] at htimes
    rw [happly] at hstep
    exact Tracked.stopped hstep ⟨n, htimes⟩ (sameEnd_overflow _ _ _)

/-! ## Loops -/

variable {body : Program} {u v : List Char}

theorem matches_loop (h : text = u ++ (Statement.loop body).chars ++ v) :
    Matches text u.length (u.length + 1 + (Program.chars body).length) := by
  refine matches_iff_split.2 ⟨u, Program.chars body, v, ?_, rfl, rfl, Program.balanced_chars body⟩
  rw [h, Statement.chars_loop]
  simp

theorem level_at_opening (h : text = u ++ (Statement.loop body).chars ++ v)
    (hplace : Place text (u.length + (Statement.loop body).chars.length) rest)
    {m : Machine} (hcounts : Program.EveryCount ProperCount (.loop body :: rest))
    (hpointer : inWord m.pointer) :
    ∃ e r, Execution.step ⟨.loop body :: rest, m⟩ = .running e ∧
      TextRun.step text ⟨u.length, m⟩ = .running r ∧ Level text e r := by
  have hopen : text = u ++ Symbol.leftBracket.toChar :: (Program.chars body ++ ']' :: v) := by
    rw [h, Statement.chars_loop]
    simp [Symbol.toChar]
  have hstep := TextRun.step_of_symbol hopen m
  cases hzero : m.isZero with
  | true =>
    refine ⟨⟨rest, m⟩, ⟨TextRun.closing text u.length + 1, m⟩, by simp [Execution.step, hzero],
      hstep.trans (by simp [TextRun.obey, hzero]), rfl, ?_, hcounts.2, hpointer⟩
    have hend : u.length + (Statement.loop body).chars.length =
        u.length + 1 + (Program.chars body).length + 1 := by
      rw [Statement.chars_loop]
      simp
      omega
    rwa [TextRun.closing_eq (matches_loop h), ← hend]
  | false =>
    refine ⟨⟨body ++ .loop body :: rest, m⟩, ⟨u.length + 1, m⟩, by simp [Execution.step, hzero],
      hstep.trans (by simp [TextRun.obey, hzero]), rfl, ?_, ?_, hpointer⟩
    · -- The text of the body lies between the brackets, and the closing one leads back.
      have hinside : text = (u ++ ['[']) ++ Program.chars body ++ (']' :: v) := by
        rw [h, Statement.chars_loop]
        simp
      have := Place.block body (u ++ ['[']) _ hinside
        (by simpa using Place.back u v h hplace)
      simpa using this
    · exact Program.everyCount_append.2 ⟨hcounts.1, hcounts⟩

theorem followed_back (h : text = u ++ (Statement.loop body).chars ++ v)
    (hplace : Place text (u.length + (Statement.loop body).chars.length) rest)
    {m : Machine} (hcounts : Program.EveryCount ProperCount (.loop body :: rest))
    (hpointer : inWord m.pointer) :
    Followed text ⟨.loop body :: rest, m⟩ ⟨u.length + 1 + (Program.chars body).length, m⟩ := by
  obtain ⟨e, r, he, hr, hlevel⟩ := level_at_opening h hplace hcounts hpointer
  have hclose : text = (u ++ '[' :: Program.chars body) ++ Symbol.rightBracket.toChar :: v := by
    rw [h, Statement.chars_loop]
    simp [Symbol.toChar]
  have hstep := TextRun.step_of_symbol hclose m
  rw [List.length_append, List.length_cons, Nat.add_comm (Program.chars body).length,
    ← Nat.add_assoc] at hstep
  simp only [TextRun.obey, TextRun.opening_eq (matches_loop h)] at hstep
  have htwo : follow (TextRun.step text) 2 ⟨u.length + 1 + (Program.chars body).length, m⟩ =
      .running r := by
    rw [follow_succ_of_running hstep, follow_one_of_running hr]
  exact Tracked.running he Nat.two_pos htwo hlevel

theorem simulates_text (text : List Char) :
    Simulates Execution.step (TextRun.step text) (Level text) SameEnd := by
  rintro ⟨todo, m⟩ ⟨counter, m'⟩ ⟨hm, hplace, hcounts, hpointer⟩
  obtain rfl : m' = m := hm
  cases hplace with
  | finished => exact Tracked.of_stopped rfl (TextRun.step_of_end text m') (.refl _)
  | back u v h hrest => exact followed_back h hrest hcounts hpointer
  | @statement s rest u v h hrest =>
    cases s with
    | print =>
      have hdot : text = u ++ Symbol.dot.toChar :: v := by rw [h, List.append_assoc]; rfl
      have hstep := TextRun.step_of_symbol hdot m'
      exact followed_of_advance rfl hstep hrest hcounts.2 (m'.pointer_write ▸ hpointer)
    | input =>
      have hcomma : text = u ++ Symbol.comma.toChar :: v := by rw [h, List.append_assoc]; rfl
      have hstep := TextRun.step_of_symbol hcomma m'
      exact followed_of_advance rfl hstep hrest hcounts.2 (m'.pointer_read ▸ hpointer)
    | counted o n => exact followed_counted h hrest hcounts hpointer
    | loop body =>
      obtain ⟨e, r, he, hr, hlevel⟩ := level_at_opening h hrest hcounts hpointer
      exact Tracked.of_running he hr hlevel

/-! ## The refinement -/

/-- The run of a text on a machine, followed for at most `steps` steps. -/
def Machine.interpretText (steps : Nat) (text : String) (m : Machine) :
    Progress TextRun (Except Fault Unit × Machine) :=
  follow (TextRun.step text.toList) steps ⟨0, m⟩

/-- A program ends exactly as its text does. -/
theorem interpret_refines_text :
    (∀ (p : Program) (m : Machine), Program.EveryCount ProperCount p →
      inWord m.pointer →
      ((∃ n r, m.interpret n p = .stopped r) ↔ ∃ n r, m.interpretText n p.text = .stopped r) ∧
      ∀ n n' r r', m.interpret n p = .stopped r → m.interpretText n' p.text = .stopped r' →
        SameEnd r r') ∧
    ∀ (text : String) (p : Program), text.length < 2 ^ 61 → parse text = .ok p →
      Program.EveryCount ProperCount p := by
  refine ⟨?_, ?_⟩
  · intro p m hcounts hpointer
    have hlevel : Level p.text.toList ⟨p, m⟩ ⟨0, m⟩ :=
      ⟨rfl, Program.toList_text p ▸ Place.start p, hcounts, hpointer⟩
    have hsim := simulates_text p.text.toList
    refine ⟨⟨?_, ?_⟩, ?_⟩
    · rintro ⟨n, r, h⟩
      obtain ⟨r', ⟨n', h'⟩, -⟩ := hsim.ends hlevel ⟨n, h⟩
      exact ⟨n', r', h'⟩
    · rintro ⟨n', r', h'⟩
      obtain ⟨r, ⟨n, h⟩, -⟩ := hsim.ends_of_ends hlevel ⟨n', h'⟩
      exact ⟨n, r, h⟩
    · intro n n' r r' h h'
      obtain ⟨r₁, hr₁, hsame⟩ := hsim.ends hlevel ⟨n, h⟩
      -- The text ends in one way only, so this is the end met from the program.
      obtain rfl := hr₁.unique ⟨n', h'⟩
      exact hsame
  · intro text p hlen hparse
    exact everyCount_of_parse (by omega) hparse

theorem interpret_refines_text_of_two_increments :
    let p : Program := [.counted .increment 2, .loop [.print, .counted .decrement 1]]
    let m := Machine.ofConsole .max (.ofScripts [] [] [])
    Program.EveryCount ProperCount p ∧ inWord m.pointer ∧ (m.interpret 10 p matches .stopped _) ∧
      ((∃ n r, m.interpret n p = .stopped r) ↔ ∃ n r, m.interpretText n p.text = .stopped r) ∧
      ∀ n n' r r', m.interpret n p = .stopped r → m.interpretText n' p.text = .stopped r' →
        SameEnd r r' := by
  intro p m
  have hcounts : Program.EveryCount ProperCount p := by
    simp [p, Program.EveryCount, Statement.EveryCount, ProperCount]
  have hpointer : inWord m.pointer := by decide
  have hends : m.interpret 10 p matches .stopped _ := by decide +kernel
  exact ⟨hcounts, hpointer, hends, interpret_refines_text.1 p m hcounts hpointer⟩

end Brainfuck
