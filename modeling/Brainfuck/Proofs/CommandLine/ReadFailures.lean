import Brainfuck.Proofs.BracketErrors
import Brainfuck.Proofs.CommandLine.Stages
import Brainfuck.Proofs.CommandLine.WholePrograms
import Brainfuck.Proofs.Demand
import Brainfuck.Proofs.SourceRequests

/-!
# Failures to read the program

A failed read looks to the parse like the end of the program. A session tells the two apart only
once the parse has succeeded. Where the read fails inside a loop, the parse fails, and the session
reports a loop that is never closed instead of the failure that cut it short.
-/

namespace Brainfuck

open Source

/-! ## Parses that meet a failure -/

namespace ByteSource

variable {script : List ReadAnswer}

theorem position_after_add_exhausted (script : List ReadAnswer) (k : Nat) :
    (Source.after (ofScript script) k).position +
      (Source.after (ofScript script) k).exhausted.toNat ≤ k := by
  induction k with
  | zero => exact Nat.le_refl 0
  | succ k ih =>
    change (ByteSource.supply _).2.position + (ByteSource.supply _).2.exhausted.toNat ≤ k + 1
    rw [position_supply, exhausted_supply]
    cases (ByteSource.supply (Source.after (ofScript script) k)).1.char? with
    | none =>
      rw [Option.isNone_none, Bool.or_true]
      exact Nat.succ_le_succ (Nat.le_of_add_right_le ih)
    | some c =>
      rw [Option.isNone_some, Bool.or_false, Option.isSome_some, if_pos rfl, Nat.add_right_comm]
      exact Nat.succ_le_succ ih

theorem position_lt_pulls {l : Lexer ByteSource} (h : (Lexer.ofSource (ofScript script)).Later l)
    (hexhausted : l.source.exhausted = true) : l.source.position < l.pulls := by
  have hasked := position_after_add_exhausted script l.pulls
  rwa [← h.source_eq, hexhausted, Bool.toNat_true] at hasked

/-- A parse that has met the end has met no stray bracket. -/
theorem neverNegative_of_exhausted
    (h : (TokenStream.ofSource (ofScript script)).parseProgram.2.lexer.source.exhausted = true) :
    NeverNegative (textOfBytes (delivered script)).toList := by
  by_contra hneg
  obtain ⟨i, hi⟩ := exists_firstStray hneg
  have hstray : (TokenStream.ofSource (TextSource.ofText (textOfBytes (delivered script)))
      ).parseProgram.1 = .error (.unexpectedToken ⟨⟨i, i + 1⟩, .symbol .rightBracket, ']'⟩) :=
    (parse_eq_complete _).trans (complete_of_firstStray hi _)
  have hdemands := demands_parseProgram (textOfBytes (delivered script))
  have halike := (alike_bytes_text script).parseProgram.alike.lexer
  have hlt := position_lt_pulls
    (TokenStream.later_parseProgram (.ofSource (ofScript script))).lexer h
  -- At the bracket as many characters have been supplied as were asked for.
  rw [hstray, TokenStream.supplied, ← halike.pulls_eq, ← halike.position_eq] at hdemands
  generalize hsupplied : (_, _) = supplied at hdemands
  cases hdemands with
  | stray =>
    obtain ⟨hpulls, hposition⟩ := Prod.ext_iff.1 hsupplied
    exact absurd hlt (hposition.trans hpulls.symm).not_lt

/-- A read of the parse comes to this failure, which is no interruption. -/
def ParseMeets (script : List ReadAnswer) (e : IoError) : Prop :=
  .failed e ∈ (withEnd script).take
      (TokenStream.ofSource (ofScript script)).parseProgram.2.lexer.source.reads ∧
    e.isInterruption = false

end ByteSource

/-! ## Texts without stray brackets -/

theorem parse_of_balanced {text : String} (h : Balanced text.toList) : ∃ p, parse text = .ok p := by
  rw [parse_eq_complete]
  exact complete_of_balanced h _

theorem parse_of_open {text : String} (hnever : NeverNegative text.toList)
    (hpos : 0 < balance text.toList) : ∃ j, LastOpen text.toList j ∧
      parse text = .error (.unterminatedLoop ⟨j, j + 1⟩ ⟨text.length, text.length⟩) := by
  obtain ⟨u, v, heq, hv⟩ := exists_open_split text.toList hpos
  have hu : NeverNegative u := by
    have hprefix := hnever.take u.length
    rwa [heq, List.take_left] at hprefix
  refine ⟨u.length, heq ▸ lastOpen_of_balanced u hv, ?_⟩
  rw [parse_eq_complete, symbolsOf, heq]
  exact complete_of_open hu hv _

/-! ## Messages -/

theorem append_colon_ne {front : List Char} (hne : front ≠ []) (hcolon : ':' ∉ front)
    (text rest more : List Char) : text ++ ':' :: rest ≠ front ++ (text ++ more) := by
  intro h
  rcases Nat.lt_or_ge text.length front.length with hlt | hle
  · have hat : front[text.length]? = some ':' := by
      have := congrArg (·[text.length]?) h
      simpa [List.getElem?_append_left hlt] using this.symm
    exact hcolon (List.mem_of_getElem? hat)
  · -- The text begins with the front, which can be taken off both sides.
    obtain ⟨less, hless⟩ :=
      List.prefix_of_prefix_length_le ⟨_, h.symm⟩ (List.prefix_append text _) hle
    have hlt : less.length < text.length := by
      have hpos := List.length_pos_of_ne_nil hne
      rw [← hless, List.length_append]
      omega
    rw [← hless, List.append_assoc, List.append_assoc, List.append_cancel_left_eq] at h
    exact append_colon_ne hne hcolon less rest more h
termination_by text.length

namespace CommandLine

open ByteSource

theorem Failure.message_file_ne_reading (path : String) (x : ReadFailure) (e : IoError) :
    (Failure.file path x).message ≠ (Failure.reading path e).message := by
  intro h
  have hlists := congrArg String.toList h
  simp only [Failure.message, toString, String.toList_append, List.append_assoc] at hlists
  have hne : "reading ".toList ≠ [] := by decide
  exact append_colon_ne hne (by decide) path.toList _ _ hlists

/-! ## Sessions -/

section

variable {σ : Type} [Source σ] {o : Options}

theorem frontEnd_result {opening : Nat → Except IoError σ} {start : σ}
    (hopens : ∀ n ≤ o.parsedOpening, ∃ s, opening n = .ok s)
    (hstart : opening o.parsedOpening = .ok start) (color : Bool) :
    (frontEnd o color opening).result =
      (readProgram (o.commands.contains .ast) (.ok start)).result := by
  unfold frontEnd
  simp only [List.contains_iff_mem]
  split
  · rename_i htokens
    have hparsed : o.parsedOpening = 1 := if_pos htokens
    obtain ⟨first, hfirst⟩ := hopens 0 (Nat.zero_le _)
    rw [hfirst, ← hparsed, hstart]
  · rename_i htokens
    have hparsed : o.parsedOpening = 0 := if_neg htokens
    rw [← hparsed, hstart]

end

variable {opening : Opening} {o : Options} {path : String} {script : List ReadAnswer}

theorem readWhole_result (horigin : o.origin = .file path)
    (hopens : ∀ n ≤ o.parsedOpening, ∃ s, opening path n = .ok s)
    (hscript : opening path o.parsedOpening = .ok script) (color : Bool) :
    (readWhole opening o color).result =
      match parse (textOfBytes (delivered script)) with
      | .error x => .error (.file path (.parsing x))
      | .ok p =>
        match (TokenStream.ofSource (ofScript script)).parseProgram.2.lexer.source.failure with
        | some e => .error (.reading path e)
        | none => .ok p := by
  have hstarts : ∀ n ≤ o.parsedOpening, ∃ s, (opening path n).map ofScript = .ok s := by
    intro n hn
    obtain ⟨s, hs⟩ := hopens n hn
    exact ⟨ofScript s, congrArg (Except.map ofScript) hs⟩
  have hfront := frontEnd_result hstarts (congrArg (Except.map ofScript) hscript) color
  rw [readProgram_of_alike (alike_bytes_text script)] at hfront
  unfold readWhole
  rw [horigin]
  dsimp only at hfront ⊢
  rw [hfront]
  -- The failure that the source has kept is only looked at behind a text that parses.
  cases parse (textOfBytes (delivered script)) with
  | error x => rfl
  | ok p =>
    dsimp only
    generalize (TokenStream.ofSource (ofScript script)).parseProgram.2.lexer.source = source
    cases source.failure <;> rfl

theorem prepare_of_readWhole_error {color : Bool} {f : Failure} (h : o.conflict = false)
    (hread : (readWhole opening o color).result = .error f) :
    (prepare opening o color).result = .error f := by
  unfold prepare
  rw [if_neg (Bool.eq_false_iff.1 h)]
  dsimp only
  rw [hread]
  rfl

/-- A failed read is reported exactly if no loop is open there. -/
theorem read_failure_is_reported_iff (opening : Opening) (o : Options) (path : String)
    (script : List ReadAnswer) (e : IoError) (color : Bool) (hconflict : o.conflict = false)
    (horigin : o.origin = .file path)
    (hopens : ∀ n ≤ o.parsedOpening, ∃ s, opening path n = .ok s)
    (hscript : opening path o.parsedOpening = .ok script) (hmeets : ParseMeets script e) :
    let text := textOfBytes (delivered script)
    ∃ f,
      (∀ (steps : Nat) (saving : String → Except IoError Unit) (stdin : List ReadAnswer),
        run steps ⟨opening, saving⟩ color stdin o =
          some ⟨bytes (prepare opening o color).stdout, none, .error f⟩) ∧
      (f.message = s!"reading {path} failed: {e.text}" ↔ balance text.toList = 0) ∧
      (balance text.toList ≠ 0 → ∃ j, LastOpen text.toList j ∧
        f = .file path (.parsing (.unterminatedLoop ⟨j, j + 1⟩ ⟨text.length, text.length⟩))) := by
  intro text
  obtain ⟨hexhausted, hfailure⟩ :=
    (account_parseProgram script).of_failed_mem hmeets.2 hmeets.1
  have hnever : NeverNegative text.toList := neverNegative_of_exhausted hexhausted
  have hresult := readWhole_result horigin hopens hscript color
  rw [hfailure] at hresult
  by_cases hbalance : balance text.toList = 0
  · -- The text cut short parses, and the failure is found in the source.
    obtain ⟨p, hp⟩ := parse_of_balanced ⟨hnever, hbalance⟩
    rw [hp] at hresult
    have hprepare := prepare_of_readWhole_error hconflict hresult
    exact ⟨.reading path e, run_of_prepare_eq_error hprepare, ⟨fun _ => hbalance, fun _ => rfl⟩,
      fun hopen => absurd hbalance hopen⟩
  · -- The open loop fails the parse, and the source is dropped with its failure.
    have hpos : 0 < balance text.toList := by
      have := hnever.balance_nonneg
      omega
    obtain ⟨j, hj, hp⟩ := parse_of_open hnever hpos
    rw [hp] at hresult
    have hprepare := prepare_of_readWhole_error hconflict hresult
    exact ⟨_, run_of_prepare_eq_error hprepare,
      ⟨fun hmessage => absurd hmessage (Failure.message_file_ne_reading path _ e),
        fun hzero => absurd hzero hbalance⟩,
      fun _ => ⟨j, hj, rfl⟩⟩

theorem read_failure_is_reported_after_a_loop :
    let e : IoError := ⟨.other, "disk on fire"⟩
    let opening : Opening := fun _ _ => .ok [.byte 91, .byte 45, .byte 93, .failed e, .byte 93]
    let o : Options := ⟨.file "a.bf", [.tokens, .interpret], .unchanged, 30000, false, none, 0⟩
    ∃ f, f.message = "reading a.bf failed: disk on fire" ∧
      run 5 ⟨opening, fun _ => .ok ()⟩ false [] o =
        some ⟨bytes (prepare opening o false).stdout, none, .error f⟩ := by
  intro e opening o
  have hmeets : ParseMeets [.byte 91, .byte 45, .byte 93, .failed e, .byte 93] e :=
    ⟨by decide +kernel, rfl⟩
  obtain ⟨f, hrun, hmessage, -⟩ := read_failure_is_reported_iff opening o "a.bf" _ e false rfl rfl
    (fun _ _ => ⟨_, rfl⟩) rfl hmeets
  exact ⟨f, hmessage.2 (by decide +kernel), hrun 5 _ []⟩

theorem open_loop_hides_read_failure :
    let e : IoError := ⟨.other, "disk on fire"⟩
    let host : Host := ⟨fun _ _ => .ok [.byte 91, .failed e], fun _ => .ok ()⟩
    let o : Options := ⟨.file "a.bf", [.interpret], .unchanged, 30000, false, none, 0⟩
    o.conflict = false ∧ ParseMeets [.byte 91, .failed e] e ∧
      (run 5 host false [] o).map (Outcome.report false) = some ⟨1, [],
        "error: a.bf: loop opened at 0..1 is never closed, input ended at 1..1\n", none⟩ := by
  intro e host o
  refine ⟨rfl, ⟨?_, rfl⟩, ?_⟩
  · decide +kernel
  · decide +kernel

end CommandLine

end Brainfuck
