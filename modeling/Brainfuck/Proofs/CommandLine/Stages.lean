import Brainfuck.CommandLine.Session
import Brainfuck.Proofs.Calls
import Brainfuck.Proofs.Cursor
import Brainfuck.Proofs.Exhaustion

/-!
# Stages of a session

What a session prints is what each of its commands prints by itself, in their order. A source is
opened once to list its tokens and once more to be parsed, so that it is taken to read the same each
time.
-/

namespace Brainfuck.CommandLine

open ByteSource

/-! ## What there is to read -/

/-- All tokens of a text, one to a line, whether or not the text can be parsed. -/
def tokenLines (color : Bool) (text : String) : String :=
  String.join ((symbolTokens 0 text.toList).map (tokenLine color))

/-- The tree of a text, if it can be parsed. -/
def drawing (text : String) : String :=
  match parse text with
  | .ok p => Program.tree p
  | .error _ => ""

/-- What is printed on the way to a program with this text. -/
def listing (o : Options) (color : Bool) (text : String) : String :=
  (if .tokens ∈ o.commands then tokenLines color text else "") ++
    if .ast ∈ o.commands then drawing text else ""

/-- What comes of reading a source: its text as far as it could be read, and the failure that ended
it if one did. -/
inductive Reading where
  | unopened (e : IoError)
  | opened (text : String) (failure : Option IoError)

/-- What there is to read if a file reads the same each time it is opened. -/
def Origin.reading (files : String → Except IoError (List ReadAnswer)) : Origin → Reading
  | inline text => .opened text none
  | file path =>
    match files path with
    | .error e => .unopened e
    | .ok script => .opened (textOfBytes (delivered script)) (failing? script)

namespace Reading

def listing (o : Options) (color : Bool) : Reading → String
  | unopened _ => ""
  | opened text _ => CommandLine.listing o color text

/-- The program, if its source opens, is read without a failure and parses. -/
def program? : Reading → Option Program
  | opened text none => (parse text).toOption
  | unopened _ | opened _ (some _) => none

theorem program?_of_ok {text : String} {p : Program} (h : parse text = .ok p) :
    program? (.opened text none) = some p := congrArg Except.toOption h

theorem program?_of_error {text : String} {e : ParseError} (h : parse text = .error e)
    (failure : Option IoError) : program? (.opened text failure) = none := by
  cases failure with
  | none => exact congrArg Except.toOption h
  | some x => rfl

end Reading

/-! ## The front end -/

section FrontEnd

variable {σ : Type} [Source σ] {source : σ} {text : String}

theorem collect_of_alike
    (h : (TokenStream.ofSource source).Alike (TokenStream.ofSource (TextSource.ofText text))) :
    (Lexer.ofSource source).collect.1 = symbolTokens 0 text.toList :=
  h.lexer.collect.1.trans (Lexer.at_ofText text).collect.1

theorem readProgram_of_alike
    (h : (TokenStream.ofSource source).Alike (TokenStream.ofSource (TextSource.ofText text)))
    (draw : Bool) :
    readProgram draw (.ok source) = ⟨if draw then drawing text else "",
      match parse text with
      | .ok p => .ok (p, (TokenStream.ofSource source).parseProgram.2.lexer.source)
      | .error e => .error (.parsing e)⟩ := by
  have hparse : (TokenStream.ofSource source).parseProgram.1 = parse text :=
    h.parseProgram.fst_eq
  unfold readProgram drawing
  dsimp only
  rw [← hparse]
  rcases (TokenStream.ofSource source).parseProgram with ⟨e | p, after⟩
  · cases draw <;> rfl
  · rfl

theorem frontEnd_of_alike
    (h : (TokenStream.ofSource source).Alike (TokenStream.ofSource (TextSource.ofText text)))
    (o : Options) (color : Bool) :
    frontEnd o color (fun _ => .ok source) = ⟨listing o color text,
      match parse text with
      | .ok p => .ok (p, (TokenStream.ofSource source).parseProgram.2.lexer.source)
      | .error e => .error (.parsing e)⟩ := by
  have hdraw : o.commands.contains .ast = decide (.ast ∈ o.commands) := List.contains_eq_mem ..
  unfold frontEnd
  simp only [List.contains_iff_mem, hdraw, readProgram_of_alike h, collect_of_alike h,
    decide_eq_true_eq]
  unfold listing tokenLines
  split
  · rfl
  · rw [String.empty_append]

end FrontEnd

/-! ## The program -/

/-- Reading the program has come to what there was to read. -/
structure Reads (r : Reading) (o : Options) (color : Bool)
    (read : Printed (Except Failure Program)) : Prop where
  stdout_eq : read.stdout = r.listing o color
  program?_eq : read.result.toOption = r.program?

theorem reads_inline (opening : Opening) {o : Options} {text : String}
    (h : o.origin = .inline text) (color : Bool) :
    Reads (.opened text none) o color (readWhole opening o color) := by
  unfold readWhole
  rw [h]
  dsimp only
  rw [frontEnd_of_alike ⟨⟨rfl, rfl, rfl⟩, rfl⟩]
  cases hparse : parse text with
  | error e => exact ⟨rfl, (Reading.program?_of_error hparse none).symm⟩
  | ok p => exact ⟨rfl, (Reading.program?_of_ok hparse).symm⟩

theorem reads_unopened (opening : Opening) {o : Options} {path : String} {e : IoError}
    (h : o.origin = .file path) (hopen : ∀ n, opening path n = .error e) (color : Bool) :
    Reads (.unopened e) o color (readWhole opening o color) := by
  have hfront : frontEnd o color (fun n => (opening path n).map ofScript) =
      ⟨"", .error (.opening e)⟩ := by
    unfold frontEnd
    simp only [hopen]
    split <;> rfl
  unfold readWhole
  rw [h]
  dsimp only
  rw [hfront]
  exact ⟨rfl, rfl⟩

theorem reads_opened (opening : Opening) {o : Options} {path : String}
    {script : List ReadAnswer} (h : o.origin = .file path)
    (hopen : ∀ n, opening path n = .ok script) (color : Bool) :
    Reads (.opened (textOfBytes (delivered script)) (failing? script)) o color
      (readWhole opening o color) := by
  have hfront : frontEnd o color (fun n => (opening path n).map ofScript) =
      frontEnd o color (fun _ => .ok (ofScript script)) := by simp only [hopen]; rfl
  have halike := alike_bytes_text script
  have hparsed := halike.parseProgram.fst_eq
  unfold readWhole
  rw [h]
  dsimp only
  rw [hfront, frontEnd_of_alike halike]
  cases hparse : parse (textOfBytes (delivered script)) with
  | error e => exact ⟨rfl, (Reading.program?_of_error hparse _).symm⟩
  | ok p =>
    -- The failure that the parse has met is the one that ends the script.
    have hfailure : (TokenStream.ofSource (ofScript script)).parseProgram.2.lexer.source.failure =
        failing? script := by
      have hok : (TokenStream.ofSource (ofScript script)).parseProgram =
          (.ok p, (TokenStream.ofSource (ofScript script)).parseProgram.2) :=
        Prod.ext (hparsed.trans hparse) rfl
      exact (account_parseProgram script).failure_eq (exhausted_of_parseProgram hok)
    dsimp only
    rw [hfailure]
    cases failing? script with
    | none => exact ⟨rfl, (Reading.program?_of_ok hparse).symm⟩
    | some x => exact ⟨rfl, rfl⟩

theorem reads_reading (files : String → Except IoError (List ReadAnswer)) (o : Options)
    (color : Bool) :
    Reads (o.origin.reading files) o color (readWhole (fun path _ => files path) o color) := by
  cases horigin : o.origin with
  | inline text => exact reads_inline _ horigin color
  | file path =>
    unfold Origin.reading
    dsimp only
    split
    · rename_i e hfile
      exact reads_unopened _ horigin (fun _ => hfile) color
    · rename_i script hfile
      exact reads_opened _ horigin (fun _ => hfile) color

/-! ## What each stage adds -/

/-- All that a session meets besides its options. A file reads the same each time it is opened. -/
structure Surroundings where
  files : String → Except IoError (List ReadAnswer)
  saving : String → Except IoError Unit
  stdin : List ReadAnswer
  color : Bool
  steps : Nat

def Options.code (o : Options) (p : Program) : String :=
  if o.bodyOnly then Program.listing p else Program.wholeListing p o.memorySize

namespace Surroundings

variable (s : Surroundings) (o : Options)

def host : Host := ⟨fun path _ => s.files path, s.saving⟩

def session : Option Outcome := CommandLine.run s.steps s.host s.color s.stdin o

def reading : Reading := o.origin.reading s.files

def interpreted (p : Program) : Progress Execution (Except Fault Unit × Machine) :=
  (Machine.ofConsole o.eof (.ofScripts s.stdin [] [])).interpret s.steps p

/-- What a command adds to standard output. -/
def added : Command → List UInt8
  | .tokens =>
    match s.reading o with
    | .opened text _ => bytes (tokenLines s.color text)
    | .unopened _ => []
  | .ast =>
    match s.reading o with
    | .opened text _ => bytes (drawing text)
    | .unopened _ => []
  | .interpret =>
    match (s.reading o).program? with
    | some p => (Execution.reached (s.interpreted o p)).console.output.toList
    | none => []
  | .codegen =>
    match (s.reading o).program?, o.output with
    | some p, none => bytes (o.code p)
    | _, _ => []

/-- What all commands add, in their own order. -/
def addedByAll : List UInt8 :=
  Command.all.flatMap fun c => if c ∈ o.commands then s.added o c else []

/-- The file that the code is written to, if it is. -/
def saved : Option (String × String) :=
  if .codegen ∈ o.commands then
    match (s.reading o).program?, o.output with
    | some p, some path =>
      match s.saving path with
      | .ok () => some (path, o.code p)
      | .error _ => none
    | _, _ => none
  else none

/-- The source opens, is read without a failure and parses, and the last command succeeds. -/
def Succeeds : Prop :=
  ∃ p, (s.reading o).program? = some p ∧
    (.interpret ∈ o.commands → ∃ m, s.interpreted o p = .stopped (.ok (), m)) ∧
    (.codegen ∈ o.commands → ∀ path, o.output = some path → s.saving path = .ok ())

/-- The outcome of a session is put together from its stages. -/
structure Composed (out : Outcome) : Prop where
  stdout_eq : out.stdout = s.addedByAll o
  saved_eq : out.saved = s.saved o
  ok_iff : out.result = .ok () ↔ s.Succeeds o

variable {s o} {p : Program}

theorem bytes_append (a b : String) : bytes (a ++ b) = bytes a ++ bytes b := by
  simp [bytes]

theorem bytes_ite (b : Prop) [Decidable b] (a : String) :
    bytes (if b then a else "") = if b then bytes a else [] := by
  split <;> rfl

theorem addedByAll_eq (s : Surroundings) (o : Options) :
    s.addedByAll o = bytes ((s.reading o).listing o s.color) ++
      ((if .interpret ∈ o.commands then s.added o .interpret else []) ++
        if .codegen ∈ o.commands then s.added o .codegen else []) := by
  unfold addedByAll Command.all
  simp only [List.flatMap_cons, List.flatMap_nil, List.append_nil]
  rw [← List.append_assoc]
  congr 1
  unfold added
  cases s.reading o with
  | unopened e => simp [Reading.listing, bytes]
  | opened text failure => simp only [Reading.listing, listing, bytes_append, bytes_ite]

/-! ### One session -/

theorem prepare_eq (h : o.conflict = false) :
    (prepare s.host.opening o s.color).stdout = (s.reading o).listing o s.color ∧
      (prepare s.host.opening o s.color).result.toOption =
        (s.reading o).program?.map (task o) := by
  have hreads : Reads (s.reading o) o s.color (readWhole s.host.opening o s.color) :=
    reads_reading s.files o s.color
  unfold prepare
  rw [h, if_neg Bool.false_ne_true, ← hreads.program?_eq, ← hreads.stdout_eq]
  refine ⟨rfl, ?_⟩
  dsimp only
  cases (readWhole s.host.opening o s.color).result <;> rfl

theorem session_of_none (h : o.conflict = false) (hp : (s.reading o).program? = none) :
    ∃ f, s.session o = some ⟨bytes ((s.reading o).listing o s.color), none, .error f⟩ := by
  obtain ⟨hstdout, hresult⟩ := prepare_eq (s := s) h
  rw [hp] at hresult
  unfold session CommandLine.run
  dsimp only
  rw [hstdout]
  cases hprepared : (prepare s.host.opening o s.color).result with
  | error f => exact ⟨f, rfl⟩
  | ok t =>
    rw [hprepared] at hresult
    cases hresult

theorem session_of_some (h : o.conflict = false) (hp : (s.reading o).program? = some p) :
    s.session o =
      match task o p with
      | .nothing => some ⟨bytes ((s.reading o).listing o s.color), none, .ok ()⟩
      | .print code => some ⟨bytes ((s.reading o).listing o s.color) ++ bytes code, none, .ok ()⟩
      | .save path code =>
        match s.saving path with
        | .ok () => some ⟨bytes ((s.reading o).listing o s.color), some (path, code), .ok ()⟩
        | .error e => some ⟨bytes ((s.reading o).listing o s.color), none, .error (.saving e)⟩
      | .interpret p =>
        match s.interpreted o p with
        | .running _ => none
        | .stopped (result, m) =>
          some ⟨bytes ((s.reading o).listing o s.color) ++ m.console.output.toList, none,
            result.mapError .running⟩ := by
  obtain ⟨hstdout, hresult⟩ := prepare_eq (s := s) h
  rw [hp] at hresult
  unfold session CommandLine.run
  dsimp only
  rw [hstdout]
  cases hprepared : (prepare s.host.opening o s.color).result with
  | error f =>
    rw [hprepared] at hresult
    cases hresult
  | ok t =>
    rw [hprepared] at hresult
    cases hresult
    cases task o p <;> rfl

theorem task_of_interpret (h : .interpret ∈ o.commands) (p : Program) :
    task o p = .interpret p := if_pos (List.contains_iff_mem.2 h)

theorem task_of_codegen (hi : .interpret ∉ o.commands) (hc : .codegen ∈ o.commands)
    (p : Program) :
    task o p = match o.output with
      | some path => .save path (o.code p)
      | none => .print (o.code p) := by
  unfold task
  rw [if_neg (by simpa using hi), if_pos (List.contains_iff_mem.2 hc)]
  rfl

theorem task_of_neither (hi : .interpret ∉ o.commands) (hc : .codegen ∉ o.commands)
    (p : Program) : task o p = .nothing := by
  unfold task
  rw [if_neg (by simpa using hi), if_neg (by simpa using hc)]

theorem composed_of_none (h : o.conflict = false) (hp : (s.reading o).program? = none)
    {out : Outcome} (hout : s.session o = some out) : s.Composed o out := by
  obtain ⟨f, hsession⟩ := session_of_none h hp
  rw [hsession] at hout
  cases hout
  refine ⟨?_, ?_, ?_⟩
  · rw [addedByAll_eq]
    simp [added, hp]
  · simp [saved, hp]
  · simp [Succeeds, hp]

theorem composed_of_interpret (h : o.conflict = false) (hp : (s.reading o).program? = some p)
    (hi : .interpret ∈ o.commands) {out : Outcome} (hout : s.session o = some out) :
    s.Composed o out := by
  have hc : .codegen ∉ o.commands := by simpa [Options.conflict, hi] using h
  rw [session_of_some h hp, task_of_interpret hi] at hout
  dsimp only at hout
  cases hrun : s.interpreted o p with
  | running e =>
    rw [hrun] at hout
    cases hout
  | stopped r =>
    obtain ⟨result, m⟩ := r
    rw [hrun] at hout
    cases hout
    refine ⟨?_, ?_, ?_⟩
    · rw [addedByAll_eq, if_pos hi, if_neg hc, List.append_nil]
      simp [added, hp, hrun, Execution.reached]
    · rw [saved, if_neg hc]
    · rcases result with f | ⟨⟩ <;> simp [Succeeds, hp, hi, hc, hrun, Except.mapError]

theorem composed_of_codegen (h : o.conflict = false) (hp : (s.reading o).program? = some p)
    (hc : .codegen ∈ o.commands) {out : Outcome} (hout : s.session o = some out) :
    s.Composed o out := by
  have hi : .interpret ∉ o.commands := by simpa [Options.conflict, hc] using h
  rw [session_of_some h hp, task_of_codegen hi hc] at hout
  have hadded := addedByAll_eq s o
  rw [if_neg hi, if_pos hc, List.nil_append] at hadded
  have hsaved : s.saved o = _ := if_pos hc
  cases houtput : o.output with
  | none =>
    rw [houtput] at hout
    cases hout
    refine ⟨?_, ?_, ?_⟩
    · rw [hadded]
      simp [added, hp, houtput]
    · rw [hsaved, hp, houtput]
    · simp [Succeeds, hp, hi, houtput]
  | some path =>
    rw [houtput] at hout
    dsimp only at hout
    -- The code goes into the file, and none of it to the standard output.
    have hnothing : s.addedByAll o = bytes ((s.reading o).listing o s.color) := by
      rw [hadded]
      simp [added, hp, houtput]
    rw [hp, houtput] at hsaved
    dsimp only at hsaved
    cases hsaving : s.saving path with
    | ok u =>
      rw [hsaving] at hout hsaved
      cases hout
      exact ⟨hnothing.symm, hsaved.symm, by simp [Succeeds, hp, hi, houtput, hsaving]⟩
    | error e =>
      rw [hsaving] at hout hsaved
      cases hout
      exact ⟨hnothing.symm, hsaved.symm, by simp [Succeeds, hp, hi, hc, houtput, hsaving]⟩

theorem composed_of_neither (h : o.conflict = false) (hp : (s.reading o).program? = some p)
    (hi : .interpret ∉ o.commands) (hc : .codegen ∉ o.commands) {out : Outcome}
    (hout : s.session o = some out) : s.Composed o out := by
  rw [session_of_some h hp, task_of_neither hi hc] at hout
  cases hout
  refine ⟨?_, ?_, ?_⟩
  · rw [addedByAll_eq, if_neg hi, if_neg hc, List.append_nil, List.append_nil]
  · rw [saved, if_neg hc]
  · simp [Succeeds, hp, hi, hc]

theorem composed_session (h : o.conflict = false) {out : Outcome}
    (hout : s.session o = some out) : s.Composed o out := by
  cases hp : (s.reading o).program? with
  | none => exact composed_of_none h hp hout
  | some p =>
    by_cases hi : .interpret ∈ o.commands
    · exact composed_of_interpret h hp hi hout
    · by_cases hc : .codegen ∈ o.commands
      · exact composed_of_codegen h hp hc hout
      · exact composed_of_neither h hp hi hc hout

/-- A session goes on for ever exactly if its run does. -/
theorem session_eq_none_iff (h : o.conflict = false) :
    s.session o = none ↔ .interpret ∈ o.commands ∧
      ∃ p e, (s.reading o).program? = some p ∧ s.interpreted o p = .running e := by
  cases hp : (s.reading o).program? with
  | none =>
    obtain ⟨f, hsession⟩ := session_of_none h hp
    simp [hsession]
  | some p =>
    rw [session_of_some h hp]
    by_cases hi : .interpret ∈ o.commands
    · rw [task_of_interpret hi]
      dsimp only
      cases hrun : s.interpreted o p <;> simp [hi, hrun]
    · -- Nothing but a run can go on for ever.
      by_cases hc : .codegen ∈ o.commands
      · rw [task_of_codegen hi hc]
        cases o.output with
        | none => simp [hi]
        | some path =>
          dsimp only
          cases s.saving path <;> simp [hi]
      · rw [task_of_neither hi hc]
        simp [hi]

/-! ### Sessions with other commands -/

theorem session_congr {cs ds : List Command} (h : ∀ c, c ∈ ds ↔ c ∈ cs) :
    s.session { o with commands := ds } = s.session { o with commands := cs } := by
  have hcontains (c : Command) : ds.contains c = cs.contains c := by
    rw [List.contains_eq_mem, List.contains_eq_mem, decide_eq_decide]
    exact h c
  unfold session CommandLine.run prepare readWhole frontEnd task Options.conflict
  simp only [hcontains]

theorem run_of_conflict (h : o.conflict = true) (steps : Nat) (host : Host) (color : Bool)
    (stdin : List ReadAnswer) :
    CommandLine.run steps host color stdin o = some ⟨[], none, .error .conflict⟩ := by
  unfold CommandLine.run prepare
  simp only [h, if_true]
  rfl

theorem added_with (s : Surroundings) (o : Options) (cs : List Command) (c : Command) :
    s.added { o with commands := cs } c = s.added o c := by
  cases c <;> rfl

theorem addedByAll_alone (s : Surroundings) (o : Options) (c : Command) :
    s.addedByAll { o with commands := [c] } = s.added o c := by
  unfold addedByAll Command.all
  simp only [added_with]
  cases c <;> simp

theorem conflict_alone (o : Options) (c : Command) :
    ({ o with commands := [c] } : Options).conflict = false := by
  cases c <;> rfl

theorem session_eq_none_iff_alone {cs : List Command}
    (h : ({ o with commands := cs } : Options).conflict = false) :
    s.session { o with commands := cs } = none ↔
      .interpret ∈ cs ∧ s.session { o with commands := [.interpret] } = none := by
  rw [session_eq_none_iff h, session_eq_none_iff (conflict_alone o .interpret)]
  simp only [List.mem_singleton, true_and]
  rfl

theorem exists_alone {cs : List Command}
    (h : ({ o with commands := cs } : Options).conflict = false) {out : Outcome}
    (hout : s.session { o with commands := cs } = some out) {c : Command} (hc : c ∈ cs) :
    ∃ alone, s.session { o with commands := [c] } = some alone := by
  cases hsession : s.session { o with commands := [c] } with
  | some alone => exact ⟨alone, rfl⟩
  | none =>
    have hinterpret : .interpret = c :=
      List.mem_singleton.1 ((session_eq_none_iff (conflict_alone o c)).1 hsession).1
    subst hinterpret
    rw [(session_eq_none_iff_alone h).2 ⟨hc, hsession⟩] at hout
    contradiction

theorem stdout_alone {c : Command} {alone : Outcome}
    (h : s.session { o with commands := [c] } = some alone) : alone.stdout = s.added o c :=
  (composed_session (conflict_alone o c) h).stdout_eq.trans (addedByAll_alone s o c)

section Ended

variable {cs : List Command} (h : ({ o with commands := cs } : Options).conflict = false)
  {out : Outcome} (hout : s.session { o with commands := cs } = some out)

include h hout

theorem addedByAll_eq_alone :
    s.addedByAll { o with commands := cs } = Command.all.flatMap fun c =>
      if c ∈ cs then ((s.session { o with commands := [c] }).map (·.stdout)).getD [] else [] := by
  unfold addedByAll
  refine congrArg (Command.all.flatMap ·) (funext fun c => ?_)
  rw [added_with]
  refine if_ctx_congr Iff.rfl (fun hc => ?_) fun _ => rfl
  obtain ⟨alone, halone⟩ := exists_alone h hout hc
  rw [halone, Option.map_some, Option.getD_some, stdout_alone halone]

theorem saved_eq_alone :
    s.saved { o with commands := cs } =
      if .codegen ∈ cs then (s.session { o with commands := [.codegen] }).bind (·.saved)
      else none := by
  unfold saved
  refine if_ctx_congr Iff.rfl (fun hc => ?_) fun _ => rfl
  obtain ⟨alone, halone⟩ := exists_alone h hout hc
  rw [halone, Option.bind_some, (composed_session (conflict_alone o .codegen) halone).saved_eq]
  exact (if_pos (List.mem_singleton_self _)).symm

end Ended

end Surroundings

open Surroundings

/-- A session prints what its commands print alone. -/
theorem stages_compose (s : Surroundings) (o : Options) (cs : List Command) :
    let session (ds : List Command) := s.session { o with commands := ds }
    (∀ ds, (∀ c, c ∈ ds ↔ c ∈ cs) → session ds = session cs) ∧
    (.interpret ∈ cs ∧ .codegen ∈ cs → ∀ steps host color stdin,
      run steps host color stdin { o with commands := cs } = some ⟨[], none, .error .conflict⟩) ∧
    (¬(.interpret ∈ cs ∧ .codegen ∈ cs) →
      (session cs = none ↔ .interpret ∈ cs ∧ session [.interpret] = none) ∧
      ∀ out, session cs = some out →
        out.stdout = (Command.all.flatMap fun c =>
          if c ∈ cs then ((session [c]).map (·.stdout)).getD [] else []) ∧
        out.saved = (if .codegen ∈ cs then (session [.codegen]).bind (·.saved) else none) ∧
        (out.result = .ok () ↔ s.Succeeds { o with commands := cs })) ∧
    ∀ c out, session [c] = some out →
      out.stdout = s.added o c ∧ out.saved = s.saved { o with commands := [c] } := by
  intro session
  have hconflict : ({ o with commands := cs } : Options).conflict = true ↔
      .interpret ∈ cs ∧ .codegen ∈ cs := by simp [Options.conflict]
  refine ⟨fun ds => session_congr, fun h => run_of_conflict (hconflict.2 h), fun h => ?_, ?_⟩
  · have hno : ({ o with commands := cs } : Options).conflict = false :=
      Bool.eq_false_iff.2 (hconflict.not.2 h)
    refine ⟨session_eq_none_iff_alone hno, fun out hout => ?_⟩
    have hcomposed := composed_session hno hout
    exact ⟨hcomposed.stdout_eq.trans (addedByAll_eq_alone hno hout),
      hcomposed.saved_eq.trans (saved_eq_alone hno hout), hcomposed.ok_iff⟩
  · intro c out hout
    exact ⟨stdout_alone hout, (composed_session (conflict_alone o c) hout).saved_eq⟩

/-- The tokens are listed although there is no tree. -/
example :
    let s : Surroundings := ⟨fun _ => .ok [], fun _ => .ok (), [], false, 0⟩
    let o : Options := ⟨.inline "+[", [.ast, .tokens, .ast], .unchanged, 30000, false, none, 0⟩
    (s.session o).map (Outcome.report false) = some ⟨1,
      bytes "Plus               + 0..1\nLeftBracket        [ 1..2\n",
      "error: loop opened at 1..2 is never closed, input ended at 2..2\n", none⟩ := by
  decide +kernel

end Brainfuck.CommandLine
