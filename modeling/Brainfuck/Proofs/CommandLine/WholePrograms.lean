import Brainfuck.CommandLine.Session
import Brainfuck.Proofs.Exhaustion

/-!
# Whole programs

Neither a run nor C code comes of a program that was not read to its end and parsed whole. A read
failure ends a file like its true end would, so that the part before it may well parse; the session
fails all the same, and has done nothing but list tokens and draw.
-/

namespace Brainfuck.CommandLine

open ByteSource

/-- The number of the opening that is parsed. The one before it is for listing the tokens. -/
def Options.parsedOpening (o : Options) : Nat := if .tokens ∈ o.commands then 1 else 0

/-! ## The front end -/

section FrontEnd

variable {σ : Type} [Source σ] {o : Options} {color : Bool}

theorem readProgram_eq_ok {draw : Bool} {opened : Except IoError σ} {p : Program} {source : σ}
    (h : (readProgram draw opened).result = .ok (p, source)) :
    ∃ start after, opened = .ok start ∧ (TokenStream.ofSource start).parseProgram = (.ok p, after) ∧
      after.lexer.source = source := by
  unfold readProgram at h
  split at h
  · contradiction
  · rename_i start
    split at h
    · contradiction
    · rename_i q after hparse
      cases h
      exact ⟨start, after, rfl, hparse, rfl⟩

theorem frontEnd_eq_ok {opening : Nat → Except IoError σ} {p : Program} {source : σ}
    (h : (frontEnd o color opening).result = .ok (p, source)) :
    (∀ n ≤ o.parsedOpening, ∃ start, opening n = .ok start) ∧
      ∃ start after, opening o.parsedOpening = .ok start ∧
        (TokenStream.ofSource start).parseProgram = (.ok p, after) ∧
        after.lexer.source = source := by
  unfold frontEnd at h
  simp only [List.contains_iff_mem] at h
  split at h
  · rename_i htokens
    -- The tokens are listed from a source of their own, opened before.
    have hparsed : o.parsedOpening = 1 := if_pos htokens
    split at h
    · contradiction
    · rename_i first hfirst
      obtain ⟨start, after, hopened, hrest⟩ := readProgram_eq_ok h
      rw [hparsed]
      refine ⟨fun n hn => ?_, start, after, hopened, hrest⟩
      rcases Nat.le_one_iff_eq_zero_or_eq_one.1 hn with rfl | rfl
      · exact ⟨first, hfirst⟩
      · exact ⟨start, hopened⟩
  · rename_i htokens
    have hparsed : o.parsedOpening = 0 := if_neg htokens
    obtain ⟨start, after, hopened, hrest⟩ := readProgram_eq_ok h
    rw [hparsed]
    refine ⟨fun n hn => ?_, start, after, hopened, hrest⟩
    rw [Nat.le_zero.1 hn]
    exact ⟨start, hopened⟩

/-- Nothing but token lines and a tree, each only if it was asked for. -/
def OnlyListed (o : Options) (color : Bool) (stdout : String) : Prop :=
  ∃ (tokens : List Token) (tree : String),
    stdout = String.join (tokens.map (tokenLine color)) ++ tree ∧
    (tokens ≠ [] → .tokens ∈ o.commands) ∧
    (tree ≠ "" → .ast ∈ o.commands ∧ ∃ p, tree = Program.tree p)

theorem onlyListed_empty (o : Options) (color : Bool) : OnlyListed o color "" :=
  ⟨[], "", rfl, fun h => absurd rfl h, fun h => absurd rfl h⟩

theorem readProgram_stdout (draw : Bool) (opened : Except IoError σ) :
    (readProgram draw opened).stdout = "" ∨
      draw = true ∧ ∃ p, (readProgram draw opened).stdout = Program.tree p := by
  unfold readProgram
  split
  · exact .inl rfl
  · split
    · exact .inl rfl
    · rename_i p after hparse
      cases draw with
      | false => exact .inl rfl
      | true => exact .inr ⟨rfl, p, rfl⟩

theorem onlyListed_frontEnd (o : Options) (color : Bool) (opening : Nat → Except IoError σ) :
    OnlyListed o color (frontEnd o color opening).stdout := by
  have htree (opened : Except IoError σ) :
      (readProgram (o.commands.contains .ast) opened).stdout ≠ "" → .ast ∈ o.commands ∧
        ∃ p, (readProgram (o.commands.contains .ast) opened).stdout = Program.tree p := by
    intro hne
    obtain hnone | ⟨hdraw, hp⟩ := readProgram_stdout (o.commands.contains .ast) opened
    · exact absurd hnone hne
    · exact ⟨List.contains_iff_mem.1 hdraw, hp⟩
  unfold frontEnd
  dsimp only
  split
  · rename_i htokens
    split
    · exact onlyListed_empty o color
    · exact ⟨_, _, rfl, fun _ => List.contains_iff_mem.1 htokens, htree _⟩
  · exact ⟨[], _, (String.empty_append).symm, fun h => absurd rfl h, htree _⟩

end FrontEnd

/-! ## Whole programs -/

/-- The program is the parse of all that its source holds, and the source was read to its end. -/
inductive WhollyRead (opening : Opening) (o : Options) (p : Program) : Prop
  | inline {text : String} {after : TokenStream TextSource} : o.origin = .inline text →
      (TokenStream.ofSource (TextSource.ofText text)).parseProgram = (.ok p, after) →
      after.lexer.source.chars = [] → parse text = .ok p → WhollyRead opening o p
  | file {path : String} {script given : List ReadAnswer} {after : TokenStream ByteSource} :
      o.origin = .file path → opening path o.parsedOpening = .ok script →
      (TokenStream.ofSource (ofScript script)).parseProgram = (.ok p, after) →
      ReadToEnd script given after.lexer.source → parse (textOfBytes (bytesOf given)) = .ok p →
      WhollyRead opening o p

/-- The source of the program cannot be opened, or the parse meets a failure or fails. -/
inductive Unreadable (opening : Opening) (o : Options) : Prop
  | inline {text : String} {e : ParseError} : o.origin = .inline text → parse text = .error e →
      Unreadable opening o
  | unopened {path : String} {n : Nat} {e : IoError} : o.origin = .file path →
      n ≤ o.parsedOpening → opening path n = .error e → Unreadable opening o
  | unread {path : String} {script : List ReadAnswer} {e : IoError} : o.origin = .file path →
      opening path o.parsedOpening = .ok script → e.isInterruption = false →
      .failed e ∈ (withEnd script).take
        (TokenStream.ofSource (ofScript script)).parseProgram.2.lexer.source.reads →
      Unreadable opening o
  | unparsed {path : String} {script : List ReadAnswer} {e : ParseError} : o.origin = .file path →
      opening path o.parsedOpening = .ok script →
      (TokenStream.ofSource (ofScript script)).parseProgram.1 = .error e → Unreadable opening o

variable {opening : Opening} {o : Options} {color : Bool} {p : Program}

theorem parse_of_delivered {script : List ReadAnswer} {after : TokenStream ByteSource}
    (h : (TokenStream.ofSource (ofScript script)).parseProgram = (.ok p, after)) :
    parse (textOfBytes (delivered script)) = .ok p := by
  have halike := (alike_bytes_text script).parseProgram.fst_eq
  rw [h] at halike
  exact halike.symm

theorem exists_script {opened : Except IoError (List ReadAnswer)} {start : ByteSource}
    (h : opened.map ofScript = .ok start) :
    ∃ script, opened = .ok script ∧ ofScript script = start := by
  cases opened with
  | error e => contradiction
  | ok script => exact ⟨script, rfl, Except.ok.inj h⟩

theorem readWhole_inline_eq_ok {text : String} (horigin : o.origin = .inline text)
    (h : (readWhole opening o color).result = .ok p) :
    WhollyRead opening o p ∧ ¬Unreadable opening o := by
  unfold readWhole at h
  rw [horigin] at h
  dsimp only at h
  split at h
  · contradiction
  · rename_i q source hfront
    cases h
    obtain ⟨-, start, after, hstart, hparse, -⟩ := frontEnd_eq_ok hfront
    cases hstart
    have htext : parse text = .ok p := congrArg Prod.fst hparse
    refine ⟨.inline horigin hparse (TextSource.chars_of_parseProgram hparse) htext, ?_⟩
    rintro (⟨ho, herror⟩ | ⟨ho, -⟩ | ⟨ho, -⟩ | ⟨ho, -⟩) <;> cases horigin.symm.trans ho
    rw [htext] at herror
    contradiction

theorem readWhole_file_eq_ok {path : String} (horigin : o.origin = .file path)
    (h : (readWhole opening o color).result = .ok p) :
    WhollyRead opening o p ∧ ¬Unreadable opening o := by
  unfold readWhole at h
  rw [horigin] at h
  dsimp only at h
  split at h
  · contradiction
  · rename_i q source hfront
    split at h
    · contradiction
    · rename_i hfailure
      cases h
      obtain ⟨hopen, start, after, hstart, hparse, rfl⟩ := frontEnd_eq_ok hfront
      obtain ⟨script, hscript, rfl⟩ := exists_script hstart
      have haccount := account_parseProgram script
      rw [hparse] at haccount
      obtain ⟨given, hread, hdelivered⟩ :=
        haccount.readToEnd (exhausted_of_parseProgram hparse) hfailure
      refine ⟨.file horigin hscript hparse hread (hdelivered ▸ parse_of_delivered hparse), ?_⟩
      -- Each way of being unreadable would have failed the reading.
      rintro (⟨ho, -⟩ | ⟨ho, hn, herror⟩ | ⟨ho, hs, he, hmem⟩ | ⟨ho, hs, herror⟩) <;>
        cases horigin.symm.trans ho
      · obtain ⟨start, hstart⟩ := hopen _ hn
        obtain ⟨script', hscript', -⟩ := exists_script hstart
        rw [hscript'] at herror
        contradiction
      · cases hscript.symm.trans hs
        rw [hparse] at hmem
        obtain ⟨-, hkept⟩ := haccount.of_failed_mem he hmem
        rw [hfailure] at hkept
        contradiction
      · cases hscript.symm.trans hs
        rw [hparse] at herror
        contradiction

/-- A program comes only of a source that was read whole. -/
theorem readWhole_eq_ok (h : (readWhole opening o color).result = .ok p) :
    WhollyRead opening o p ∧ ¬Unreadable opening o := by
  cases horigin : o.origin with
  | inline text => exact readWhole_inline_eq_ok horigin h
  | file path => exact readWhole_file_eq_ok horigin h

theorem readWhole_stdout (opening : Opening) (o : Options) (color : Bool) :
    OnlyListed o color (readWhole opening o color).stdout := by
  unfold readWhole
  split
  · dsimp only
    split <;> exact onlyListed_frontEnd ..
  · dsimp only
    split
    · exact onlyListed_frontEnd ..
    · split <;> exact onlyListed_frontEnd ..

/-! ## Sessions -/

theorem prepare_eq_ok {t : Task} (h : (prepare opening o color).result = .ok t) :
    ∃ p, t = task o p ∧ WhollyRead opening o p ∧ ¬Unreadable opening o := by
  unfold prepare at h
  split at h
  · contradiction
  · dsimp only at h
    cases hread : (readWhole opening o color).result with
    | error f =>
      rw [hread] at h
      contradiction
    | ok p =>
      rw [hread] at h
      exact ⟨p, (Except.ok.inj h).symm, readWhole_eq_ok hread⟩

theorem prepare_stdout (opening : Opening) (o : Options) (color : Bool) :
    OnlyListed o color (prepare opening o color).stdout := by
  unfold prepare
  split
  · exact onlyListed_empty o color
  · exact readWhole_stdout opening o color

theorem prepare_of_unreadable (h : Unreadable opening o) :
    ∃ f, (prepare opening o color).result = .error f := by
  cases hprepared : (prepare opening o color).result with
  | error f => exact ⟨f, rfl⟩
  | ok t =>
    obtain ⟨p, -, -, hreadable⟩ := prepare_eq_ok hprepared
    exact absurd h hreadable

theorem run_of_prepare_eq_error {f : Failure} (h : (prepare opening o color).result = .error f)
    (steps : Nat) (saving : String → Except IoError Unit) (stdin : List ReadAnswer) :
    run steps ⟨opening, saving⟩ color stdin o =
      some ⟨bytes (prepare opening o color).stdout, none, .error f⟩ := by
  unfold run
  simp only [h]

/-- What is carried out was read and parsed whole. -/
theorem only_whole_programs_are_carried_out (opening : Opening) (o : Options) (color : Bool) :
    let prepared := prepare opening o color
    (∀ t, prepared.result = .ok t → ∃ p, t = task o p ∧ WhollyRead opening o p) ∧
    (∀ f, prepared.result = .error f → OnlyListed o color prepared.stdout ∧
      ∀ (steps : Nat) (saving : String → Except IoError Unit) (stdin : List ReadAnswer),
        run steps ⟨opening, saving⟩ color stdin o =
          some ⟨bytes prepared.stdout, none, .error f⟩) ∧
    (Unreadable opening o → ∃ f, prepared.result = .error f) := by
  refine ⟨fun t h => ?_, fun f h => ?_, prepare_of_unreadable⟩
  · obtain ⟨p, ht, hread, -⟩ := prepare_eq_ok h
    exact ⟨p, ht, hread⟩
  · exact ⟨prepare_stdout opening o color, run_of_prepare_eq_error h⟩

/-- The part before the failure is a program that would print. -/
example :
    let e : IoError := ⟨.other, "bad sector"⟩
    let host : Host := ⟨fun _ _ => .ok [.byte 43, .byte 46, .failed e], fun _ => .ok ()⟩
    let o : Options := ⟨.file "a.bf", [.interpret], .unchanged, 30000, false, none, 0⟩
    (run 5 host false [] o).map (Outcome.report false) =
      some ⟨1, [], "error: reading a.bf failed: bad sector\n", none⟩ := by
  decide +kernel

end Brainfuck.CommandLine
