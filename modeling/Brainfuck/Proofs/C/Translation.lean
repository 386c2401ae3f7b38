import Brainfuck.Execution
import Brainfuck.Proofs.Bytes
import Brainfuck.Proofs.C.Listing
import Brainfuck.Proofs.C.Run
import Brainfuck.Proofs.Counts
import Brainfuck.Proofs.Repetition
import Brainfuck.Proofs.Simulation
import Brainfuck.Proofs.Streams

/-!
# The translation to C preserves meaning

A program and its whole listing take each step together. The listing checks no bounds, so the
program must stay inside the array and the pointer inside its word.
-/

namespace Brainfuck.C

/-! ## The same state -/

/-- The pointer, the cells, the input still to be read and the output are the same. Outside the
array all cells are 0. -/
structure Mirrors (m : Machine) (s : State) : Prop where
  current : s.current = m.pointer
  cells : ∀ i, m.tape.get i = (s.element? i).getD 0
  input : s.input = delivered m.console.input
  output : s.output = m.console.output

structure Level (size : Nat) (eof : EndOfInput) (m : Machine) (s : State) : Prop extends
    Mirrors m s where
  size_eq : s.memory.size = size
  eof_eq : m.eof = eof
  console : m.console.NeverFails

variable {size : Nat} {eof : EndOfInput} {m : Machine} {s : State}

theorem level_start (size : Nat) (eof : EndOfInput) {console : Console} (h : console.NeverFails)
    (hnew : console.output = #[]) :
    Level size eof (.ofConsole eof console) (.start size (delivered console.input)) := by
  refine ⟨⟨rfl, ?_, rfl, hnew.symm⟩, Array.size_replicate, rfl, h⟩
  intro i
  change Tape.empty.get i = _
  rw [Tape.get_empty]
  unfold State.element? State.start
  split
  · rw [Array.getElem?_replicate]
    split <;> rfl
  · rfl

def InArray (size : Nat) (m : Machine) : Prop := 0 ≤ m.pointer ∧ m.pointer < size

theorem Level.element?_current (h : Level size eof m s) (hin : InArray size m) :
    s.element? s.current = some m.value := by
  obtain ⟨hpos, hlt⟩ := hin
  have hsome : (s.element? m.pointer).isSome := by
    unfold State.element?
    rw [if_pos hpos, Array.getElem?_eq_getElem (by rw [h.size_eq]; omega)]
    rfl
  obtain ⟨v, hv⟩ := Option.isSome_iff_exists.1 hsome
  rw [h.current, hv, Machine.value, h.cells, hv]
  rfl

theorem Level.store (h : Level size eof m s) (hin : InArray size m) (v : Int) :
    ∃ s', s.store v = some s' ∧ Level size eof (m.setValue (UInt8.ofInt v)) s' := by
  obtain ⟨hpos, hlt⟩ := hin
  have hbounds : 0 ≤ s.current ∧ s.current < s.memory.size := by
    rw [h.current, h.size_eq]
    exact ⟨hpos, hlt⟩
  refine ⟨_, if_pos hbounds, ⟨h.current, ?_, h.input, h.output⟩, ?_, h.eof_eq, h.console⟩
  · intro i
    change (m.tape.set m.pointer _).get i = _
    rw [Tape.get_set, h.cells, ← h.current]
    unfold State.element?
    by_cases hi : s.current = i
    · subst hi
      have hlt' : s.current.toNat < s.memory.size := by omega
      rw [if_pos rfl, if_pos hbounds.1, Array.getElem?_setIfInBounds_self_of_lt hlt']
      rfl
    · rw [if_neg hi]
      split
      · have hne : s.current.toNat ≠ i.toNat := by omega
        rw [Array.getElem?_setIfInBounds_ne hne]
      · rfl
  · exact Array.size_setIfInBounds.trans h.size_eq

/-! ## One statement -/

/-- Both succeed and come to the same state. -/
def Together (size : Nat) (eof : EndOfInput) (r : Except Fault Unit × Machine)
    (s : Option State) : Prop :=
  ∃ m' s', r = (.ok (), m') ∧ s = some s' ∧ Level size eof m' s'

theorem Level.flush (h : Level size eof m s) :
    ∃ m', m.flush = (.ok (), m') ∧ Level size eof m' s := by
  obtain ⟨c, hc, hnever, hinput, houtput⟩ := h.console.flush
  refine ⟨{ m with console := c }, ?_, ⟨h.current, h.cells, ?_, ?_⟩, h.size_eq, h.eof_eq, hnever⟩
  · unfold Machine.flush
    rw [hc]
  · rw [h.input, hinput]
  · rw [h.output, houtput]

theorem Level.putchar (h : Level size eof m s) (hin : InArray size m) :
    Together size eof m.write s.putchar := by
  obtain ⟨c, hc, hnever, hinput, houtput⟩ := h.console.write m.value
  refine ⟨{ m with console := c }, { s with output := s.output.push m.value }, ?_, ?_,
    ⟨h.current, h.cells, ?_, ?_⟩, h.size_eq, h.eof_eq, hnever⟩
  · unfold Machine.write
    rw [hc]
  · unfold State.putchar
    rw [h.element?_current hin]
    rfl
  · rw [h.input, hinput]
  · rw [h.output, houtput]

theorem Level.getchar (h : Level size eof m s) (hin : InArray size m)
    (hend : eof = .max ∨ delivered m.console.input ≠ []) :
    Together size eof m.read s.getchar := by
  obtain ⟨m₁, hflush, h₁⟩ := h.flush
  have hpointer : m₁.pointer = m.pointer := by rw [← h₁.current, h.current]
  have hin₁ : InArray size m₁ := by
    unfold InArray
    rwa [hpointer]
  obtain ⟨c, hc, hnever, hinput, houtput⟩ := h₁.console.read
  unfold Machine.read State.getchar
  rw [hflush]
  simp only [hc]
  rw [← h₁.input] at hinput ⊢
  cases hs : s.input with
  | nil =>
    rw [hs] at hinput
    -- At the end `getchar` yields -1, of which the last 8 bits are the 255 of the policy.
    have hmax : m₁.eof = .max := by
      rcases hend with rfl | hne
      · exact h₁.eof_eq
      · exact absurd (h.input.symm.trans hs) hne
    have hread : Level size eof
        (({ m₁ with console := c } : Machine).record (.inputExhausted m₁.eof m₁.pointer)) s :=
      ⟨⟨h₁.current, h₁.cells, hs.trans hinput.symm, h₁.output.trans houtput.symm⟩,
        h₁.size_eq, h₁.eof_eq, hnever⟩
    obtain ⟨s', hs', hlevel⟩ := hread.store hin₁ (-1)
    refine ⟨_, s', ?_, hs', hlevel⟩
    simp only [List.head?_nil, Machine.atEnd, Machine.record, hmax, EndOfInput.stored?]
    rfl
  | cons b rest =>
    rw [hs] at hinput
    have hread : Level size eof { m₁ with console := c } { s with input := rest } :=
      ⟨⟨h₁.current, h₁.cells, hinput.symm, h₁.output.trans houtput.symm⟩,
        h₁.size_eq, h₁.eof_eq, hnever⟩
    obtain ⟨s', hs', hlevel⟩ := hread.store hin₁ b.toNat
    rw [ofInt_toNat] at hlevel
    exact ⟨_, s', rfl, hs', hlevel⟩

theorem Sign.sum?_eq {sign : Sign} {x : Int} {n : Nat} (hn : n < 2 ^ 62)
    (hword : inWord (sign.exact x n)) : sign.sum? x n = some (sign.exact x n) := by
  have hcount : inWord n := by
    unfold inWord
    omega
  exact if_pos ⟨hcount, hword⟩

theorem Level.changeCell (h : Level size eof m s) (hin : InArray size m) (sign : Sign) {n : Nat}
    (hn : n < 2 ^ 62) :
    Together size eof (.ok (), m.setValue (UInt8.ofInt (sign.exact m.value.toNat n)))
      (s.change .cell sign n) := by
  have hword : inWord (sign.exact m.value.toNat n) := by
    have := m.value.toNat_lt
    unfold inWord Sign.exact
    cases sign <;> simp only <;> omega
  obtain ⟨s', hs', hlevel⟩ := h.store hin (sign.exact m.value.toNat n)
  refine ⟨_, s', rfl, ?_, hlevel⟩
  unfold State.change
  simp [h.element?_current hin, Sign.sum?_eq hn hword, hs']

theorem Level.changeCurrent (h : Level size eof m s) (sign : Sign) {n : Nat} (hn : n < 2 ^ 62)
    (hsafe : ∀ o m', m.shift (sign.exact 0 n) ≠ (.error (.overflow o), m')) :
    Together size eof (m.shift (sign.exact 0 n)) (s.change .current sign n) := by
  -- A sum outside the word would have stopped the program too.
  have hword : inWord (m.pointer + sign.exact 0 n) := by
    by_contra hnot
    exact hsafe _ _ (Machine.shift_of_not_inWord hnot)
  have hexact : sign.exact s.current n = m.pointer + sign.exact 0 n := by
    rw [h.current]
    unfold Sign.exact
    cases sign <;> simp only <;> omega
  refine ⟨_, { s with current := m.pointer + sign.exact 0 n }, Machine.shift_of_inWord hword, ?_,
    ⟨rfl, h.cells, h.input, h.output⟩, h.size_eq, h.eof_eq, h.console⟩
  unfold State.change
  simp only
  rw [← hexact] at hword ⊢
  rw [Sign.sum?_eq hn hword]
  rfl

theorem Level.change (h : Level size eof m s) {o : Operator} {n : Nat} (hn : n < 2 ^ 62)
    (hin : target o = .cell → InArray size m)
    (hsafe : ∀ f m', m.apply o n ≠ (.error (.overflow f), m')) :
    Together size eof (m.apply o n) (s.change (target o) (sign o) n) := by
  cases o with
  | increment =>
    have := h.changeCell (hin rfl) .plus hn
    rwa [Sign.exact, UInt8.ofInt_add, ofInt_toNat, ofInt_natCast] at this
  | decrement =>
    have := h.changeCell (hin rfl) .minus hn
    rwa [Sign.exact, ofInt_sub, ofInt_toNat, ofInt_natCast] at this
  | shiftRight =>
    have hexact : Sign.plus.exact 0 n = n * 1 := by
      rw [Sign.exact]
      omega
    rw [Machine.apply_shiftRight (by omega), ← hexact] at hsafe ⊢
    exact h.changeCurrent .plus hn hsafe
  | shiftLeft =>
    have hexact : Sign.minus.exact 0 n = n * -1 := by
      rw [Sign.exact]
      omega
    rw [Machine.apply_shiftLeft (by omega), ← hexact] at hsafe ⊢
    exact h.changeCurrent .minus hn hsafe

/-! ## Staying inside -/

open Progress

/-- The next statement reads or writes a cell. -/
def UsesCell : Program → Prop
  | [] => False
  | .print :: _ | .input :: _ | .loop _ :: _ => True
  | .counted o _ :: _ => o = .increment ∨ o = .decrement

/-- Every cell that the run uses is in the array, and its pointer stays in the word. -/
structure Inside (size : Nat) (e : Execution) : Prop where
  cells : Always Execution.step (fun e => UsesCell e.todo → InArray size e.machine) e
  pointer : ∀ o m, ¬Ends Execution.step e (.error (.overflow o), m)

/-- The run never reads past the end of its input. -/
def NeverAtEnd (e : Execution) : Prop :=
  Always Execution.step
    (fun e => e.todo.head? = some .input → delivered e.machine.console.input ≠ []) e

variable {e e' : Execution} {c : Run}

theorem Inside.next (h : Inside size e) (hstep : e.step = .running e') : Inside size e' := by
  refine ⟨h.cells.later hstep, ?_⟩
  intro o m hend
  exact h.pointer o m (hend.of_step hstep)

theorem NeverAtEnd.next (h : NeverAtEnd e) (hstep : e.step = .running e') : NeverAtEnd e' :=
  h.later hstep

/-! ## Step by step -/

/-- The two runs have the same statements before them and are in the same state. -/
structure InStep (size : Nat) (eof : EndOfInput) (e : Execution) (c : Run) :
    Prop where
  todo : c.todo = ofProgram e.todo ++ [.finish]
  level : Level size eof e.machine c.state
  counts : Program.EveryCount (· < 2 ^ 62) e.todo
  inside : Inside size e
  input : eof = .max ∨ NeverAtEnd e

def SameResult (r : Except Fault Unit × Machine) (r' : Outcome × State) : Prop :=
  r.1 = .ok () ∧ r'.1 = .returned ∧ Mirrors r.2 r'.2

theorem InStep.next {c' : Run} (h : InStep size eof e c) (hstep : e.step = .running e')
    (htodo : c'.todo = ofProgram e'.todo ++ [.finish])
    (hlevel : Level size eof e'.machine c'.state)
    (hcounts : Program.EveryCount (· < 2 ^ 62) e'.todo) : InStep size eof e' c' := by
  refine ⟨htodo, hlevel, hcounts, h.inside.next hstep, ?_⟩
  rcases h.input with hmax | hnever
  · exact .inl hmax
  · exact .inr (hnever.next hstep)

theorem alongside_of_together {rest : Program} {x : Except Fault Unit × Machine}
    {y : Option State} (h : InStep size eof e c)
    (he : e.step = Execution.proceed rest x)
    (hc : c.step = Run.proceed c.state (ofProgram rest ++ [.finish]) y)
    (hcounts : Program.EveryCount (· < 2 ^ 62) rest) (hxy : Together size eof x y) :
    Alongside (InStep size eof) SameResult e.step c.step := by
  obtain ⟨m', s', rfl, rfl, hlevel⟩ := hxy
  rw [he, hc]
  exact .running (h.next he rfl hlevel hcounts)

theorem alongside_step (h : InStep size eof e c) :
    Alongside (InStep size eof) SameResult e.step c.step := by
  obtain ⟨todo, m⟩ := e
  obtain ⟨todo', s⟩ := c
  obtain rfl : todo' = ofProgram todo ++ [.finish] := h.todo
  have hin : UsesCell todo → InArray size m := h.inside.cells.now
  cases todo with
  | nil =>
    -- The end of the program stands against the `return` of the listing.
    obtain ⟨m', hflush, hlevel⟩ := h.level.flush
    have he : Execution.step ⟨[], m⟩ = .stopped (.ok (), m') := congrArg stopped hflush
    rw [he]
    exact .stopped ⟨rfl, rfl, hlevel.toMirrors⟩
  | cons st rest =>
    cases st with
    | print => exact alongside_of_together h rfl rfl h.counts.2 (h.level.putchar (hin trivial))
    | input =>
      have hend : eof = .max ∨ delivered m.console.input ≠ [] := by
        rcases h.input with hmax | hnever
        · exact .inl hmax
        · exact .inr (hnever.now rfl)
      exact alongside_of_together h rfl rfl h.counts.2 (h.level.getchar (hin trivial) hend)
    | counted o n =>
      -- The pointer may be anywhere while it is only moved.
      have hcell : target o = .cell → InArray size m := by
        intro ho
        apply hin
        cases o <;> first | contradiction | simp [UsesCell]
      have hsafe : ∀ f m', m.apply o n ≠ (.error (.overflow f), m') := by
        intro f m' hm
        refine h.inside.pointer f m' (ends_of_stopped ?_)
        change Execution.proceed rest (m.apply o n) = _
        rw [hm]
        rfl
      exact alongside_of_together h rfl rfl h.counts.2 (h.level.change h.counts.1 hcell hsafe)
    | loop body =>
      have hvalue : s.element? s.current = some m.value := h.level.element?_current (hin trivial)
      have hc : Run.step ⟨ofProgram (.loop body :: rest) ++ [.finish], s⟩ =
          if m.value = 0 then .running ⟨ofProgram rest ++ [.finish], s⟩
          else .running ⟨ofProgram (body ++ .loop body :: rest) ++ [.finish], s⟩ := by
        rw [ofProgram_append, List.append_assoc]
        exact Run.step_loop hvalue _ _
      rw [hc]
      by_cases hzero : m.value = 0
      · have he : Execution.step ⟨.loop body :: rest, m⟩ = .running ⟨rest, m⟩ :=
          if_pos (by simp [Machine.isZero, hzero])
        rw [he, if_pos hzero]
        exact .running (h.next he rfl h.level h.counts.2)
      · have he : Execution.step ⟨.loop body :: rest, m⟩ =
            .running ⟨body ++ .loop body :: rest, m⟩ :=
          if_neg (by simp [Machine.isZero, hzero])
        rw [he, if_neg hzero]
        have hcounts := Program.everyCount_append.2 ⟨h.counts.1, h.counts⟩
        exact .running (h.next he rfl h.level hcounts)

/-! ## The whole run -/

/-- A whole listing runs as its program does, step by step. -/
theorem wholeListing_preserves_meaning (p : Program) (size : Nat) (eof : EndOfInput)
    (console : Console) (hnew : console.output = #[]) (hconsole : console.NeverFails)
    (hcounts : Program.EveryCount (· < 2 ^ 62) p)
    (hinside : Inside size ⟨p, .ofConsole eof console⟩)
    (hinput : eof = .max ∨ NeverAtEnd ⟨p, .ofConsole eof console⟩) :
    ∃ u, TranslationUnit.read? (p.wholeListing size) = some u ∧
      ((∃ n r, (Machine.ofConsole eof console).interpret n p = .stopped r) ↔
        ∃ n r, u.run n (delivered console.input) = .stopped r) ∧
      (∀ n n' r r', (Machine.ofConsole eof console).interpret n p = .stopped r →
        u.run n' (delivered console.input) = .stopped r' → SameResult r r') ∧
      ∀ n e c, (Machine.ofConsole eof console).interpret n p = .running e →
        u.run n (delivered console.input) = .running c → Mirrors e.machine c.state := by
  refine ⟨_, read?_wholeListing p size, ?_⟩
  have hstart : InStep size eof ⟨p, .ofConsole eof console⟩
      ⟨ofProgram p ++ [.finish], .start size (delivered console.input)⟩ :=
    ⟨rfl, level_start size eof hconsole hnew, hcounts, hinside, hinput⟩
  have hboth : ∀ n, Alongside (InStep size eof) SameResult
      ((Machine.ofConsole eof console).interpret n p)
      (TranslationUnit.run n ⟨size, ofProgram p ++ [.finish]⟩ (delivered console.input)) :=
    alongside_follow (fun _ _ => alongside_step) hstart
  refine ⟨⟨?_, ?_⟩, ?_, ?_⟩
  · rintro ⟨n, r, hr⟩
    obtain ⟨r', hr', -⟩ := (hr ▸ hboth n).of_stopped
    exact ⟨n, r', hr'⟩
  · rintro ⟨n, r', hr'⟩
    obtain ⟨r, hr, -⟩ := (hr' ▸ hboth n).of_stopped_right
    exact ⟨n, r, hr⟩
  · intro n n' r r' hr hr'
    obtain ⟨r₁, hr₁, hsame⟩ := (hr ▸ hboth n).of_stopped
    -- The listing ends in one way only, so this is the end met in step.
    obtain rfl : r₁ = r' := Ends.unique ⟨n, hr₁⟩ ⟨n', hr'⟩
    exact hsame
  · intro n e c he hc
    have h := hboth n
    rw [he, hc] at h
    cases h with
    | running hstep => exact hstep.level.toMirrors

theorem wholeListing_preserves_meaning_of_one_byte :
    let p : Program := [.loop [.print], .input, .counted .increment 300, .print]
    let console := Console.ofScripts [.byte 7] [] []
    Inside 1 ⟨p, .ofConsole .unchanged console⟩ ∧ NeverAtEnd ⟨p, .ofConsole .unchanged console⟩ ∧
    ∃ u, TranslationUnit.read? (p.wholeListing 1) = some u ∧
      ((∃ n r, (Machine.ofConsole .unchanged console).interpret n p = .stopped r) ↔
        ∃ n r, u.run n (delivered console.input) = .stopped r) ∧
      (∀ n n' r r', (Machine.ofConsole .unchanged console).interpret n p = .stopped r →
        u.run n' (delivered console.input) = .stopped r' → SameResult r r') ∧
      ∀ n e c, (Machine.ofConsole .unchanged console).interpret n p = .running e →
        u.run n (delivered console.input) = .running c → Mirrors e.machine c.state := by
  intro p console
  have hcounts : Program.EveryCount (· < 2 ^ 62) p := by
    simp [p, Program.EveryCount, Statement.EveryCount]
  have hconsole : console.NeverFails := by
    constructor <;> simp [console, Console.ofScripts]
  have hin : ∀ m : Machine, m.pointer = 0 → InArray 1 m := by
    intro m hm
    unfold InArray
    omega
  have hinside : Inside 1 ⟨p, .ofConsole .unchanged console⟩ := by
    constructor
    · refine .of_running rfl (fun _ => hin _ rfl) ?_
      refine .of_running rfl (fun _ => hin _ rfl) ?_
      refine .of_running rfl (fun _ => hin _ rfl) ?_
      refine .of_running rfl (fun _ => hin _ rfl) ?_
      exact .of_stopped rfl False.elim
    · intro o m hend
      have hok := hend.unique ⟨5, rfl⟩
      cases hok
  have hinput : NeverAtEnd ⟨p, .ofConsole .unchanged console⟩ := by
    refine .of_running rfl (fun h => by cases h) ?_
    refine .of_running rfl (fun _ => by decide) ?_
    refine .of_running rfl (fun h => by cases h) ?_
    refine .of_running rfl (fun h => by cases h) ?_
    exact .of_stopped rfl (fun h => by cases h)
  exact ⟨hinside, hinput, wholeListing_preserves_meaning p 1 .unchanged console rfl hconsole hcounts
    hinside (.inr hinput)⟩

end Brainfuck.C
