import Brainfuck.Proofs.CallOrder
import Brainfuck.Proofs.Joining
import Brainfuck.Proofs.OtherStreams
import Brainfuck.Proofs.Refinement

/-!
# Running in pieces

A text run as a whole, against its two halves run one after the other on the same machine. The
halves flush once more, between them, and a run of one operator may lie across the seam.
-/

namespace Brainfuck

open Progress

/-! ## Programs with the same symbols -/

theorem SameEnd.of_same {r r' t : Except Fault Unit × Machine} (h : SameEnd r t)
    (h' : SameEnd r' t) : SameEnd r r' where
  result := h.result.trans h'.result.symm
  console := h.console.trans h'.console.symm
  tape := h.tape.trans h'.tape.symm
  log := h.log.trans h'.log.symm
  pointer hr := by
    have hr' : ∀ o, r'.1 ≠ .error (.overflow o) := by rwa [h'.result, ← h.result]
    exact (h.pointer hr).trans (h'.pointer hr').symm

theorem exists_sameEnd_of_symbols_eq {p q : Program} (h : Program.symbols p = Program.symbols q)
    (hp : Program.EveryCount ProperCount p) (hq : Program.EveryCount ProperCount q) {m : Machine}
    (hpointer : inWord m.pointer) {r : Except Fault Unit × Machine}
    (hr : Ends Execution.step ⟨p, m⟩ r) :
    ∃ r', Ends Execution.step ⟨q, m⟩ r' ∧ SameEnd r r' := by
  have hchars : Program.chars p = Program.chars q := congrArg (List.map Symbol.toChar) h
  have hsim := simulates_text (Program.chars q)
  have hlevel : Level (Program.chars q) ⟨p, m⟩ ⟨0, m⟩ :=
    ⟨rfl, hchars ▸ Place.start p, hp, hpointer⟩
  have hlevel' : Level (Program.chars q) ⟨q, m⟩ ⟨0, m⟩ := ⟨rfl, Place.start q, hq, hpointer⟩
  obtain ⟨t, ht, hsame⟩ := hsim.ends hlevel hr
  obtain ⟨r', hr', hsame'⟩ := hsim.ends_of_ends hlevel' ht
  exact ⟨r', hr', hsame.of_same hsame'⟩

/-! ## One program behind the other -/

namespace Execution

/-- The same run with a program behind what is still to be carried out. -/
def append (e : Execution) (q : Program) : Execution := ⟨e.todo ++ q, e.machine⟩

theorem proceed_append (rest q : Program) (x : Except Fault Unit × Machine) :
    proceed (rest ++ q) x = (proceed rest x).map (·.append q) id := by
  rcases x with ⟨f | ⟨⟩, m⟩ <;> rfl

/-- What is behind does not matter before the end. -/
theorem step_append {e : Execution} (h : e.todo ≠ []) (q : Program) :
    (e.append q).step = e.step.map (·.append q) id := by
  obtain ⟨todo, m⟩ := e
  rcases todo with _ | ⟨s, rest⟩
  · contradiction
  · cases s with
    | print => exact proceed_append rest q m.write
    | input => exact proceed_append rest q m.read
    | counted o n => exact proceed_append rest q (m.apply o n)
    | loop body =>
      unfold append step
      simp only [List.cons_append]
      split
      · rfl
      · simp [Progress.map]

theorem step_append_of_running {e next : Execution} (h : e.step = .running next) (q : Program) :
    (e.append q).step = .running (next.append q) := by
  have hne : e.todo ≠ [] := by
    intro htodo
    obtain ⟨todo, m⟩ := e
    obtain rfl : todo = [] := htodo
    contradiction
  rw [step_append hne, h]
  rfl

end Execution

variable {p q : Program} {m m₀ m₁ : Machine} {r : Except Fault Unit × Machine} {k n : Nat}

theorem interpret_append_of_running {e : Execution} (h : m.interpret k p = .running e)
    (q : Program) : m.interpret k (p ++ q) = .running (e.append q) := by
  obtain ⟨e', he', rfl⟩ := follow_running_of_running (R := fun e e' => e' = e.append q)
    (fun e e' next he hnext => ⟨next.append q, he ▸ Execution.step_append_of_running hnext q, rfl⟩)
    rfl h
  exact he'

theorem ends_append (h : Ends Execution.step ⟨p, m⟩ r) (q : Program) :
    (∃ k m₀, m.interpret k p = .running ⟨[], m₀⟩ ∧ m₀.flush = r ∧
      m.interpret k (p ++ q) = .running ⟨q, m₀⟩) ∨
    ((∃ f, r.1 = .error f) ∧ Ends Execution.step ⟨p ++ q, m⟩ r) := by
  obtain ⟨n, hn⟩ := h
  obtain ⟨k, e, -, hrun, hstop⟩ := exists_last_step hn
  have hrun' := interpret_append_of_running hrun q
  -- At its end the first program flushes, and the whole goes on instead.
  by_cases htodo : e.todo = []
  · obtain ⟨todo, m₀⟩ := e
    obtain rfl : todo = [] := htodo
    exact .inl ⟨k, m₀, hrun, Progress.stopped.inj hstop, hrun'⟩
  · have hstop' : (e.append q).step = .stopped r := by
      rw [Execution.step_append htodo, hstop]
      rfl
    refine .inr ⟨?_, (ends_of_stopped hstop').of_follow hrun'⟩
    rcases Execution.stopped_cases hstop with ⟨hnil, -⟩ | ⟨_, f, hf, -⟩ | ⟨_, f, hf, -⟩ |
      ⟨_, _, f, hf, -⟩
    · contradiction
    · exact ⟨f, hf⟩
    · exact ⟨f, hf⟩
    · exact ⟨f, hf⟩

/-! ## Flushes that succeed -/

namespace Console

/-- Every flush still to be made succeeds. -/
def FlushesSucceed (c : Console) : Prop := ∀ a ∈ c.flushes, a = .done

variable {c : Console}

theorem FlushesSucceed.nextFlush_eq (h : c.FlushesSucceed) : c.nextFlush = .done :=
  headD_flushes h

theorem FlushesSucceed.flush (h : c.FlushesSucceed) : c.flush.2.FlushesSucceed := by
  rw [flush_eq]
  exact fun a ha => h a (List.mem_of_mem_tail ha)

theorem FlushesSucceed.write (h : c.FlushesSucceed) (b : UInt8) : (c.write b).2.FlushesSucceed := by
  rw [write_eq]
  exact h

theorem FlushesSucceed.read (h : c.FlushesSucceed) : c.read.2.FlushesSucceed := by
  rw [read_eq]
  exact h

end Console

theorem Execution.flushesSucceed_step {e : Execution} (h : e.machine.console.FlushesSucceed) :
    (reached e.step).console.FlushesSucceed := by
  obtain ⟨todo, m⟩ := e
  rcases todo with _ | ⟨_ | _ | ⟨o, n⟩ | body, rest⟩
  · rw [console_step_end]
    exact h.flush
  · rw [console_step_print]
    exact h.write m.value
  · rw [console_step_input_of_flushed rest h.nextFlush_eq]
    exact h.flush.read
  · rw [console_step_counted]
    exact h
  · rw [console_step_loop]
    exact h

theorem flushesSucceed_interpret (h : m.console.FlushesSucceed) (p : Program) (n : Nat) :
    (Execution.reached (m.interpret n p)).console.FlushesSucceed :=
  passed_induction Execution.step ⟨p, m⟩
    (P := fun _ run => (Execution.reached run).console.FlushesSucceed) h
    (fun _ _ => Execution.flushesSucceed_step) n

/-! ## One flush more -/

/-- The second console has been flushed more often. Since then both have made the same calls, those
of the one behind `base`, those of the other behind `base'`. -/
structure FlushedApart (base base' : List Call) (c c' : Console) : Prop where
  input_eq : c'.input = c.input
  writes_eq : c'.writes = c.writes
  output_eq : c'.output = c.output
  flushes : c.FlushesSucceed
  flushes' : c'.FlushesSucceed
  calls_eq : ∃ made, c.calls.toList = base ++ made ∧ c'.calls.toList = base' ++ made

variable {base base' : List Call} {c c' : Console}

theorem FlushedApart.flush (h : FlushedApart base base' c c') :
    CalledAlike (FlushedApart base base') c.flush c'.flush := by
  obtain ⟨made, hcalls, hcalls'⟩ := h.calls_eq
  have hflushes := h.flushes.flush
  have hflushes' := h.flushes'.flush
  rw [Console.flush_eq, h.flushes.nextFlush_eq] at hflushes ⊢
  rw [Console.flush_eq, h.flushes'.nextFlush_eq] at hflushes' ⊢
  refine ⟨rfl, h.input_eq, h.writes_eq, h.output_eq, hflushes, hflushes', made ++ [.flush .done],
    ?_, ?_⟩
  · simp [hcalls]
  · simp [hcalls']

theorem FlushedApart.read (h : FlushedApart base base' c c') :
    CalledAlike (FlushedApart base base') c.read c'.read := by
  obtain ⟨made, hcalls, hcalls'⟩ := h.calls_eq
  rw [Console.read_eq, Console.read_eq, h.input_eq]
  refine ⟨rfl, rfl, h.writes_eq, h.output_eq, h.flushes, h.flushes',
    made ++ (settleRead c.input).asked.map .read, ?_, ?_⟩
  · simp [hcalls]
  · simp [hcalls']

theorem FlushedApart.write (h : FlushedApart base base' c c') (b : UInt8) :
    CalledAlike (FlushedApart base base') (c.write b) (c'.write b) := by
  obtain ⟨made, hcalls, hcalls'⟩ := h.calls_eq
  rw [Console.write_eq, Console.write_eq, h.writes_eq, h.output_eq]
  refine ⟨rfl, h.input_eq, rfl, rfl, h.flushes, h.flushes',
    made ++ (settleWrite c.writes).asked.map (.write b), ?_, ?_⟩
  · simp [hcalls]
  · simp [hcalls']

theorem stepsAlongside_of_flushedApart (h : FlushedApart base base' m.console c) (todo : Program) :
    StepsAlongside (FlushedApart base base') todo m c := by
  rcases todo with _ | ⟨_ | _ | ⟨o, n⟩ | body, rest⟩
  · exact stepsAlongside_end h.flush
  · exact stepsAlongside_print (h.write m.value)
  · exact stepsAlongside_input h.flush fun _ => h.flush.consoles.read
  · exact stepsAlongside_counted h o n
  · exact stepsAlongside_loop h body

theorem beside_flush (h : m₀.console.FlushesSucceed) (hflush : m₀.flush = (.ok (), m₁)) :
    Beside (FlushedApart m₀.console.calls.toList m₁.console.calls.toList) m₀ m₁ := by
  rw [Machine.flush_eq] at hflush
  obtain rfl : { m₀ with console := m₀.console.flush.2 } = m₁ := congrArg Prod.snd hflush
  have hflushes := h.flush
  dsimp only
  rw [Console.flush_eq] at hflushes ⊢
  refine ⟨rfl, rfl, rfl, rfl, h, hflushes, [], ?_, ?_⟩
  · exact (List.append_nil _).symm
  · exact (List.append_nil _).symm

/-! ## The two halves and the whole -/

/-- The second half has come from `m₁` to `r`, the whole from `m` to `r'`, alike but for the flush
between. Only an overflow leaves other pointers, since a run across the seam moves all the way or
not at all. -/
structure SameButFlush (m m₁ : Machine) (r r' : Except Fault Unit × Machine) : Prop where
  result_eq : r'.1 = r.1
  output_eq : r'.2.console.output = r.2.console.output
  input_eq : r'.2.console.input = r.2.console.input
  writes_eq : r'.2.console.writes = r.2.console.writes
  tape_eq : r'.2.tape = r.2.tape
  log_eq : r'.2.log = r.2.log
  pointer_eq : (∀ o, r.1 ≠ .error (.overflow o)) → r'.2.pointer = r.2.pointer
  calls_eq : ∃ before, m.callsSince m₁ = before ++ [.flush .done] ∧
    m.callsSince r'.2 = before ++ m₁.callsSince r.2

theorem sameButFlush {r₀ r' : Except Fault Unit × Machine}
    (hrun : m.interpret k p = .running ⟨[], m₀⟩)
    (hflush : m₀.flush = (.ok (), m₁))
    (hbeside : EndsBeside (FlushedApart m₀.console.calls.toList m₁.console.calls.toList) r₀ r)
    (hsame : SameEnd r₀ r') : SameButFlush m m₁ r r' := by
  have hconsoles := hbeside.beside.consoles
  have heffect := hbeside.beside.sameEffect hconsoles.output_eq
  refine ⟨?_, ?_, ?_, ?_, ?_, ?_, fun hr => ?_, m.callsSince m₀, ?_, ?_⟩
  · rw [hbeside.result_eq, hsame.result]
  · rw [heffect.output_eq, hsame.console]
  · rw [hconsoles.input_eq, hsame.console]
  · rw [hconsoles.writes_eq, hsame.console]
  · rw [heffect.tape_eq, hsame.tape]
  · rw [heffect.log_eq, hsame.log]
  · rw [hbeside.result_eq] at hr
    rw [heffect.pointer_eq, hsame.pointer hr]
  · have hstop : Execution.step ⟨[], m₀⟩ = .stopped (.ok (), m₁) := by
      rw [Execution.step_end, hflush]
    rw [callsSince_last hrun hstop, Execution.calls_of_step_ok hstop]
  · -- The calls up to the seam are the same, and so are those made since.
    obtain ⟨made, hcalls, hcalls'⟩ := hconsoles.calls_eq
    have hbefore := (calls_interpret p m k).1
    have hsince := callsSince_interpret p m k
    rw [hrun] at hbefore hsince
    change m₀.console.calls.toList = _ at hbefore
    change m.callsSince m₀ = _ at hsince
    rw [Machine.callsSince_eq hcalls']
    apply Machine.callsSince_eq
    rw [← hsame.console, hcalls, hbefore, hsince, List.append_assoc]

/-- Two texts run in pieces as they do in one. -/
theorem running_in_pieces_agrees_with_running_whole {a b : String}
    (hlen : a.length + b.length < 2 ^ 61) (ha : parse a = .ok p) (hb : parse b = .ok q)
    (m : Machine) (hpointer : inWord m.pointer) (hflushes : ∀ x ∈ m.console.flushes, x = .done) :
    ∃ whole, parse (a ++ b) = .ok whole ∧
      (∀ m₁, Ends Execution.step ⟨p, m⟩ (.ok (), m₁) →
        (∀ r, Ends Execution.step ⟨q, m₁⟩ r →
          ∃ r', Ends Execution.step ⟨whole, m⟩ r' ∧ SameButFlush m m₁ r r') ∧
        ∀ r', Ends Execution.step ⟨whole, m⟩ r' →
          ∃ r, Ends Execution.step ⟨q, m₁⟩ r ∧ SameButFlush m m₁ r r') ∧
      ∀ f m₁, Ends Execution.step ⟨p, m⟩ (.error f, m₁) →
        ∃ r', Ends Execution.step ⟨whole, m⟩ r' ∧ SameEnd (.error f, m₁) r' := by
  have hparse := parse_append ha hb
  have hcounts : Program.EveryCount ProperCount (p ++ q) :=
    Program.everyCount_append.2
      ⟨everyCount_of_parse (by omega) ha, everyCount_of_parse (by omega) hb⟩
  have hcounts' : Program.EveryCount ProperCount (Program.joined p q) :=
    everyCount_of_parse (by rw [String.length_append]; omega) hparse
  -- A run across the seam is two statements of `p ++ q`, but one of the parsed text.
  have hsymbols : Program.symbols (p ++ q) = Program.symbols (Program.joined p q) := by
    rw [Program.symbols_append, Program.symbols_joined]
  have hsucceed (k : Nat) {m₀ : Machine} (hrun : m.interpret k p = .running ⟨[], m₀⟩) :
      m₀.console.FlushesSucceed := by
    have := flushesSucceed_interpret hflushes p k
    rwa [hrun] at this
  refine ⟨Program.joined p q, hparse, fun m₁ hp => ?_, fun f m₁ hp => ?_⟩
  · rcases ends_append hp q with ⟨k, m₀, hrun, hflush, hrun'⟩ | ⟨⟨f, hf⟩, -⟩
    · have hbeside := beside_flush (hsucceed k hrun) hflush
      have halong := alongside_interpret stepsAlongside_of_flushedApart hbeside q
      constructor
      · intro r hr
        obtain ⟨r₀, hr₀, hend⟩ := hr.of_alongside_right halong
        obtain ⟨r', hr', hsame⟩ := exists_sameEnd_of_symbols_eq hsymbols hcounts hcounts' hpointer
          (hr₀.of_follow hrun')
        exact ⟨r', hr', sameButFlush hrun hflush hend hsame⟩
      · intro r' hr'
        obtain ⟨r₀, hr₀, hsame⟩ :=
          exists_sameEnd_of_symbols_eq hsymbols.symm hcounts' hcounts hpointer hr'
        obtain ⟨r, hr, hend⟩ := ((ends_iff_of_follow hrun').1 hr₀).of_alongside halong
        exact ⟨r, hr, sameButFlush hrun hflush hend ((SameEnd.refl r₀).of_same hsame)⟩
    · contradiction
  · rcases ends_append hp q with ⟨k, m₀, hrun, hflush, -⟩ | ⟨-, hwhole⟩
    · -- The flush between the pieces cannot be what has failed.
      obtain ⟨x, -, hx⟩ := Machine.nextFlush_of_flush_error (congrArg Prod.fst hflush)
      rw [(hsucceed k hrun).nextFlush_eq] at hx
      contradiction
    · exact exists_sameEnd_of_symbols_eq hsymbols hcounts hcounts' hpointer hwhole

theorem running_in_pieces_agrees_with_running_whole_across_a_seam :
    let p : Program := [.counted .increment 1, .print, .counted .shiftRight 1]
    let q : Program := [.counted .shiftRight 2, .counted .decrement 1, .print]
    let m := Machine.ofConsole .zero (.ofScripts [] [] [])
    parse "+.>one" = .ok p ∧ parse "two>>-." = .ok q ∧
      ∃ whole m₁ r r', parse ("+.>one" ++ "two>>-.") = .ok whole ∧
        Ends Execution.step ⟨p, m⟩ (.ok (), m₁) ∧ Ends Execution.step ⟨q, m₁⟩ r ∧
        Ends Execution.step ⟨whole, m⟩ r' ∧ SameButFlush m m₁ r r' := by
  intro p q m
  have ha : parse "+.>one" = .ok p := by
    rw [parse_eq_ok_iff_symbols]
    exact ⟨by decide, by simp [p, Program.Folded, Statement.Folded, Statement.Apart]⟩
  have hb : parse "two>>-." = .ok q := by
    rw [parse_eq_ok_iff_symbols]
    exact ⟨by decide, by simp [q, Program.Folded, Statement.Folded, Statement.Apart]⟩
  obtain ⟨m₁, r, hp, hq⟩ : ∃ m₁ r, Ends Execution.step ⟨p, m⟩ (.ok (), m₁) ∧
      Ends Execution.step ⟨q, m₁⟩ r :=
    ⟨_, _, ⟨4, rfl⟩, 4, rfl⟩
  obtain ⟨whole, hwhole, hok, -⟩ := running_in_pieces_agrees_with_running_whole (by decide) ha hb m
    (by decide) (by simp [m, Machine.ofConsole, Console.ofScripts])
  obtain ⟨r', hr', hsame⟩ := (hok m₁ hp).1 r hq
  exact ⟨ha, hb, whole, m₁, r, r', hwhole, hp, hq, hr', hsame⟩

end Brainfuck
