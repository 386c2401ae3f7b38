import Brainfuck.Proofs.Folding
import Brainfuck.Proofs.Recording
import Brainfuck.Proofs.Upcoming

/-!
# The log of a parse

A parse gives an account of its source in the log: every token where it stands in the source, and
right after a bracket the loop that it opens or closes. What the closing bracket says of its loop is
true of the program that the parse comes to.
-/

namespace Brainfuck

open Source

/-! ## Accounts -/

/-- The tokens that a statement other than a loop is parsed from. -/
inductive Single : Statement → List Token → Prop
  | print {t : Token} : t.kind = .symbol .dot → Single .print [t]
  | input {t : Token} : t.kind = .symbol .comma → Single .input [t]
  | counted {o : Operator} {t : Token} {run : List Token} :
      (∀ u ∈ t :: run, u.kind = .symbol (.operator o)) →
      Single (.counted o (1 + run.length)) (t :: run)

/-- The tokens that a program is parsed from and the events that are recorded with them. -/
inductive Program.Recorded : Program → List Token → List Event → Prop
  | nil : Recorded [] [] []
  | single {p : Program} {s : Statement} {tokens used : List Token} {events : List Event} :
      Recorded p tokens events → Single s used →
      Recorded (p ++ [s]) (tokens ++ used) (events ++ used.map Token.scanned)
  | loop {p body : Program} {opening closing : Token} {tokens inside : List Token}
      {events told : List Event} :
      Recorded p tokens events → opening.kind = .symbol .leftBracket → Recorded body inside told →
      closing.kind = .symbol .rightBracket →
      Recorded (p ++ [.loop body]) (tokens ++ (opening :: inside ++ [closing]))
        (events ++ (opening.scanned :: .enteringLoop opening.span :: told ++
          [closing.scanned, .leavingLoop closing.span body.length]))

/-- The same of a draft. What it holds of an open loop is parsed from the tokens after the bracket of
the loop. -/
inductive Draft.Recorded : Draft → List Token → List Event → Prop
  | outermost {done : List Statement} {tokens : List Token} {events : List Event} :
      Program.Recorded done.reverse tokens events → Draft.Recorded ⟨[], done⟩ tokens events
  | inside {loops : List OpenLoop} {done statements : List Statement} {opening : Token}
      {tokens inside : List Token} {events told : List Event} :
      Draft.Recorded ⟨loops, done⟩ tokens events → opening.kind = .symbol .leftBracket →
      Program.Recorded statements.reverse inside told →
      Draft.Recorded ⟨⟨opening.span, statements⟩ :: loops, done⟩ (tokens ++ opening :: inside)
        (events ++ opening.scanned :: .enteringLoop opening.span :: told)

/-- The loops that are open after an event, the innermost first, when these were open before it. -/
def Event.openAfter (spans : List Span) : Event → List Span
  | .enteringLoop span => span :: spans
  | .leavingLoop .. => spans.tail
  | .scannedToken .. | .parsedProgram .. | .readingFailed .. | .inputExhausted .. => spans

/-- The loops that a log has entered and not left yet, the last one first. -/
def entered (log : List Event) : List Span := log.foldl Event.openAfter []

/-- The log of a parse that ends with a result. The source has these tokens before its end at
`finish`, and `ending` is what is recorded there. -/
inductive Logged (tokens : List Token) (finish : Nat) (ending : List Event) :
    Except ParseError Program → List Event → Prop
  | parsed {p : Program} {events : List Event} : Program.Recorded p tokens events →
      Logged tokens finish ending (.ok p)
        (events ++ ending ++ [.parsedProgram p.length (Program.depth p)])
  /-- The bracket closes nothing and is the last token that is scanned. -/
  | stray {p : Program} {before left : List Token} {t : Token} {events : List Event} :
      tokens = before ++ t :: left → t.kind = .symbol .rightBracket →
      Program.Recorded p before events → Program.Folded p →
      Logged tokens finish ending (.error (.unexpectedToken t)) (events ++ [t.scanned])
  | unterminated {d : Draft} {openedAt : Span} {events : List Event} : d.Recorded tokens events →
      d.Folded → (entered events).head? = some openedAt →
      Logged tokens finish ending (.error (.unterminatedLoop openedAt (.point finish)))
        (events ++ ending)

/-! ## Loops that are left open -/

theorem foldl_openAfter_scanned (spans : List Span) (tokens : List Token) :
    (tokens.map Token.scanned).foldl Event.openAfter spans = spans := by
  induction tokens with
  | nil => rfl
  | cons t tokens ih => exact ih

theorem Program.Recorded.foldl_openAfter {p : Program} {tokens : List Token} {events : List Event}
    (h : Program.Recorded p tokens events) (spans : List Span) :
    events.foldl Event.openAfter spans = spans := by
  induction h generalizing spans with
  | nil => rfl
  | single hp hs ih => rw [List.foldl_append, ih, foldl_openAfter_scanned]
  | loop hp hopening hbody hclosing ih ihbody =>
    simp only [List.foldl_append, List.foldl_cons, List.foldl_nil, ih, ihbody]
    rfl

theorem Draft.Recorded.entered_eq {d : Draft} {tokens : List Token} {events : List Event}
    (h : d.Recorded tokens events) : entered events = d.loops.map OpenLoop.openedAt := by
  induction h with
  | outermost hdone => exact hdone.foldl_openAfter []
  | inside houter hopening hinside ih =>
    rw [entered] at ih ⊢
    rw [List.foldl_append, ih, List.foldl_cons, List.foldl_cons, hinside.foldl_openAfter]
    rfl

/-! ## Drafts and what they record -/

namespace Draft

variable {d : Draft} {tokens : List Token} {events : List Event}

theorem Recorded.push (h : d.Recorded tokens events) {s : Statement} {used : List Token}
    {told : List Event}
    (hs : ∀ p before made, Program.Recorded p before made →
      Program.Recorded (p ++ [s]) (before ++ used) (made ++ told)) :
    (d.push s).Recorded (tokens ++ used) (events ++ told) := by
  cases h with
  | outermost hdone =>
    have hmore := hs _ _ _ hdone
    rw [← List.reverse_cons] at hmore
    exact .outermost hmore
  | inside houter hopening hinside =>
    have hmore := hs _ _ _ hinside
    rw [← List.reverse_cons] at hmore
    rw [List.append_assoc, List.append_assoc]
    exact .inside houter hopening hmore

theorem Recorded.opening (h : d.Recorded tokens events) {t : Token}
    (ht : t.kind = .symbol .leftBracket) :
    Recorded ⟨.opened t.span :: d.loops, d.done⟩ (tokens ++ [t])
      (events ++ [t.scanned, .enteringLoop t.span]) :=
  .inside h ht .nil

theorem Recorded.closing {l : OpenLoop} {outer : List OpenLoop} {done : List Statement}
    (h : Recorded ⟨l :: outer, done⟩ tokens events) {t : Token}
    (ht : t.kind = .symbol .rightBracket) :
    (Draft.push ⟨outer, done⟩ l.close).Recorded (tokens ++ [t])
      (events ++ [t.scanned, .leavingLoop t.span l.statements.length]) := by
  cases h with
  | inside houter hopening hinside =>
    rw [List.append_assoc, List.append_assoc]
    refine houter.push fun p before made hp => ?_
    have hloop := Program.Recorded.loop hp hopening hinside ht
    rwa [List.length_reverse] at hloop

end Draft

/-! ## One statement after the other -/

namespace TokenStream

variable {σ : Type} [Source σ] {ts : TokenStream σ}

section Single

variable {ps : List Placed} {finish : Nat} {ending made : List Event}

theorem Records.takeRun (h : ts.Records ps finish ending made) (o : Operator) (count : Nat) :
    (ts.takeRun o count).2.Records (ps.dropWhile (·.isOperator o)) finish ending
      (made ++ ((ps.takeWhile (·.isOperator o)).map Placed.token).map Token.scanned) := by
  fun_induction TokenStream.takeRun o count ts generalizing ps made
  case case1 count ts seen hk hlt ih =>
    obtain ⟨p, rest, rfl, hp⟩ := h.toHolds.cons_of_symbol hk
    have ho : p.isOperator o = true := Placed.isOperator_iff.2 hp
    have hrest := ih h.lookahead.next
    rw [List.append_assoc, List.singleton_append] at hrest
    simpa only [List.takeWhile_cons, List.dropWhile_cons, ho, if_true, List.map_cons] using hrest
  case case2 count ts seen hk =>
    have hnone : ps.takeWhile (·.isOperator o) = [] ∧ ps.dropWhile (·.isOperator o) = ps := by
      simp only [seen, h.lookahead_fst] at hk
      cases ps with
      | nil => exact ⟨rfl, rfl⟩
      | cons p rest =>
        have ho : p.isOperator o = false := by simpa [Placed.shown, Placed.isOperator] using hk
        simp [ho]
    rw [hnone.1, hnone.2, List.map_nil, List.map_nil, List.append_nil]
    exact h.lookahead

theorem Records.parseSingle {p : Placed} (h : ts.Records (p :: ps) finish ending made)
    (hl : p.symbol ≠ .leftBracket) (hr : p.symbol ≠ .rightBracket) {d : Draft}
    (hd : d.RunOver (p :: ps)) :
    ∃ s after used left, ts.parseSingle = (.ok s, after) ∧ p :: ps = used ++ left ∧
      Single s (used.map Placed.token) ∧ d.putAll used = .ok (d.push s) ∧
      (d.push s).RunOver left ∧
      after.Records left finish ending (made ++ (used.map Placed.token).map Token.scanned) := by
  have hk : ts.next.1.kind = .symbol p.symbol := by rw [h.next_fst]; rfl
  have hn := h.next
  rcases p with ⟨_ | _ | o | _ | _, offset⟩
  · refine ⟨.print, ts.next.2, [⟨.dot, offset⟩], ps, by simp [TokenStream.parseSingle, hk], rfl,
      .print rfl, rfl, .push rfl d ps, hn⟩
  · refine ⟨.input, ts.next.2, [⟨.comma, offset⟩], ps, by simp [TokenStream.parseSingle, hk], rfl,
      .input rfl, rfl, .push rfl d ps, hn⟩
  · have hrun : ∀ q ∈ ps.takeWhile (·.isOperator o), q.symbol = .operator o := fun q hq =>
      Placed.isOperator_iff.1 (List.all_eq_true.1 List.all_takeWhile q hq)
    have hcount := (hn.toHolds.takeRun o 1).1
    have hrest := hn.takeRun o 1
    refine ⟨.counted o (ts.next.2.takeRun o 1).1, (ts.next.2.takeRun o 1).2,
      ⟨.operator o, offset⟩ :: ps.takeWhile (·.isOperator o), ps.dropWhile (·.isOperator o),
      by simp only [TokenStream.parseSingle, hk], ?_, ?_, ?_, runOver_dropWhile d o _ ps, ?_⟩
    · rw [List.cons_append, List.takeWhile_append_dropWhile]
    · rw [hcount, ← List.length_map Placed.token]
      refine .counted (List.forall_mem_cons.2 ⟨rfl, List.forall_mem_map.2 fun q hq => ?_⟩)
      rw [Placed.kind_token, hrun q hq]
    · rw [hcount]
      exact Draft.putAll_new_run (hd.ne rfl) rfl hrun
    · simpa using hrest
  · exact absurd rfl hl
  · exact absurd rfl hr

end Single

/-! ## From draft to draft -/

/-- The parse has come to the draft, and what it has taken of the symbols is in the log. -/
structure ComesTo (ts : TokenStream σ) (whole : List Placed) (finish : Nat) (ending : List Event)
    (d : Draft) : Prop where
  reached : ∃ taken ps made, whole = taken ++ ps ∧ ts.Records ps finish ending made ∧
    d.Recorded (taken.map Placed.token) made ∧ d.RunOver ps
  folded : d.Folded

variable {whole : List Placed} {finish : Nat} {ending : List Event} {d : Draft}

theorem ComesTo.lookahead (h : ts.ComesTo whole finish ending d) :
    ts.lookahead.2.ComesTo whole finish ending d := by
  obtain ⟨taken, ps, made, hwhole, hrecords, hdraft, hover⟩ := h.reached
  exact ⟨⟨taken, ps, made, hwhole, hrecords.lookahead, hdraft, hover⟩, h.folded⟩

theorem ComesTo.parseSingle (h : ts.ComesTo whole finish ending d)
    (hr : ts.lookahead.1.kind ≠ .symbol .rightBracket) (he : ts.lookahead.1.kind ≠ .endOfFile)
    (hl : ts.lookahead.1.kind ≠ .symbol .leftBracket) :
    ∃ s after, ts.parseSingle = (.ok s, after) ∧ after.ComesTo whole finish ending (d.push s) := by
  obtain ⟨taken, ps, made, rfl, hrecords, hdraft, hover⟩ := h.reached
  obtain ⟨p, rest, rfl, hpl, hpr⟩ := hrecords.toHolds.cons_of_other hr he hl
  obtain ⟨s, after, used, left, hs, heq, hsingle, hput, hmore, hafter⟩ :=
    hrecords.parseSingle hpl hpr hover
  refine ⟨s, after, hs, ⟨taken ++ used, left, _, ?_, hafter, ?_, hmore⟩, h.folded.putAll hput⟩
  · rw [heq, List.append_assoc]
  · rw [List.map_append]
    exact hdraft.push fun p before made hp => hp.single hsingle

theorem ComesTo.parseSingle_lookahead (h : ts.ComesTo whole finish ending d)
    (hr : ts.lookahead.1.kind ≠ .symbol .rightBracket) (he : ts.lookahead.1.kind ≠ .endOfFile)
    (hl : ts.lookahead.1.kind ≠ .symbol .leftBracket) :
    ∃ s after, ts.lookahead.2.parseSingle = (.ok s, after) ∧
      after.ComesTo whole finish ending (d.push s) := by
  rw [← lookahead_lookahead] at hr he hl
  exact h.lookahead.parseSingle hr he hl

theorem ComesTo.opening (h : ts.ComesTo whole finish ending d)
    (hk : ts.lookahead.1.kind = .symbol .leftBracket) :
    (ts.next.2.record (.enteringLoop ts.lookahead.1.span)).ComesTo whole finish ending
      ⟨.opened ts.lookahead.1.span :: d.loops, d.done⟩ := by
  obtain ⟨taken, ps, made, rfl, hrecords, hdraft, hover⟩ := h.reached
  obtain ⟨p, rest, rfl, hp⟩ := hrecords.toHolds.cons_of_symbol hk
  rw [hrecords.toHolds.span_lookahead]
  have hrest := hrecords.next.record (stash_next ts) (e := .enteringLoop p.span) (by simp)
  refine ⟨⟨taken ++ [p], rest, _, List.append_cons .., hrest, ?_,
    .of_lastOperator?_eq_none rfl rest⟩, h.folded.put (Draft.put_leftBracket hp)⟩
  rw [List.map_append, List.append_assoc]
  exact hdraft.opening (by rw [Placed.kind_token, hp])

theorem ComesTo.closing {l : OpenLoop} {outer : List OpenLoop} {done : List Statement}
    (h : ts.ComesTo whole finish ending ⟨l :: outer, done⟩)
    (hk : ts.lookahead.1.kind = .symbol .rightBracket) :
    (ts.next.2.record (.leavingLoop ts.lookahead.1.span l.statements.length)).ComesTo whole finish
      ending (Draft.push ⟨outer, done⟩ l.close) := by
  obtain ⟨taken, ps, made, rfl, hrecords, hdraft, hover⟩ := h.reached
  obtain ⟨p, rest, rfl, hp⟩ := hrecords.toHolds.cons_of_symbol hk
  rw [hrecords.toHolds.span_lookahead]
  have hrest := hrecords.next.record (stash_next ts)
    (e := .leavingLoop p.span l.statements.length) (by simp)
  refine ⟨⟨taken ++ [p], rest, _, List.append_cons .., hrest, ?_, .push rfl _ rest⟩,
    h.folded.put (Draft.put_rightBracket hp rfl)⟩
  rw [List.map_append, List.append_assoc]
  exact hdraft.closing (by rw [Placed.kind_token, hp])

theorem ComesTo.recorded_of_end (h : ts.ComesTo whole finish ending d)
    (hk : ts.lookahead.1.kind = .endOfFile) :
    ts.lookahead.1 = .endOfFile finish ∧ ∃ events, d.Recorded (whole.map Placed.token) events ∧
      ts.lookahead.2.lexer.log.toList = events ++ ending := by
  obtain ⟨taken, ps, made, rfl, hrecords, hdraft, hover⟩ := h.reached
  obtain rfl := hrecords.toHolds.nil_of_end hk
  rw [List.append_nil]
  exact ⟨hrecords.lookahead_fst, made, hdraft, hrecords.log_lookahead⟩

theorem ComesTo.unterminated {l : OpenLoop} {outer : List OpenLoop} {done : List Statement}
    (h : ts.ComesTo whole finish ending ⟨l :: outer, done⟩)
    (hk : ts.lookahead.1.kind = .endOfFile) :
    Logged (whole.map Placed.token) finish ending
      (.error (.unterminatedLoop l.openedAt ts.lookahead.1.span))
      ts.lookahead.2.lexer.log.toList := by
  obtain ⟨hend, events, hdraft, hlog⟩ := h.recorded_of_end hk
  rw [hend, hlog]
  exact .unterminated hdraft h.folded (by rw [hdraft.entered_eq]; rfl)

theorem ComesTo.stray {done : List Statement} (h : ts.ComesTo whole finish ending ⟨[], done⟩)
    (hk : ts.lookahead.1.kind = .symbol .rightBracket) :
    ∃ e after, ts.parseSingle = (.error e, after) ∧
      Logged (whole.map Placed.token) finish ending (.error e) after.lexer.log.toList := by
  obtain ⟨taken, ps, made, rfl, hrecords, hdraft, hover⟩ := h.reached
  obtain ⟨p, rest, rfl, hp⟩ := hrecords.toHolds.cons_of_symbol hk
  refine ⟨_, _, hrecords.toHolds.parseSingle_stray hp, ?_⟩
  have hlog : ts.next.2.lexer.log.toList = made ++ [p.token.scanned] := by
    have := hrecords.next.log_eq
    rwa [stash_next, Option.isSome_none, if_neg (by simp), List.append_nil] at this
  rw [hlog]
  cases hdraft with
  | outermost hdone =>
    exact .stray (by rw [List.map_append, List.map_cons]) (by rw [Placed.kind_token, hp]) hdone
      ((Program.folded_reverse done).2 h.folded.done)

/-! ## Parsing -/

/-- How one statement of the program ends: in the program itself, or with the log of an error. -/
def ComesToStatement (whole : List Placed) (finish : Nat) (ending : List Event)
    (done : List Statement) : Except ParseError Statement × TokenStream σ → Prop
  | (.ok s, after) => after.ComesTo whole finish ending ⟨[], s :: done⟩
  | (.error e, after) =>
    Logged (whole.map Placed.token) finish ending (.error e) after.lexer.log.toList

theorem ComesTo.parseBody {inner : OpenLoop} {outer : List OpenLoop} {done : List Statement}
    (h : ts.ComesTo whole finish ending ⟨inner :: outer, done⟩) :
    ComesToStatement whole finish ending done (ts.parseBody inner outer) := by
  -- In each case the log belongs to the draft, one bracket or statement further on.
  fun_induction TokenStream.parseBody inner outer ts
  case case1 inner ts seen hk hlt left =>
    simp only [left, seen, next_lookahead]
    exact h.closing hk
  case case2 inner ts seen hk hlt left around outer ih =>
    simp only [left, seen, next_lookahead] at ih ⊢
    exact ih (h.closing hk)
  case case3 inner outer ts seen hk => exact h.unterminated hk
  case case4 inner outer ts seen hk hlt ih =>
    simp only [seen, next_lookahead] at ih ⊢
    exact ih (h.opening hk)
  case case5 inner outer ts seen s after hs hlt hle hr he hl ih =>
    obtain ⟨s', after', hs', hafter⟩ := h.parseSingle_lookahead hr he hl
    cases hs.symm.trans hs'
    exact ih hafter
  case case6 inner outer ts seen e after hs hr he hl =>
    -- Only a bracket or the end could be no statement.
    obtain ⟨s', after', hs', -⟩ := h.parseSingle_lookahead hr he hl
    cases hs.symm.trans hs'

theorem ComesTo.parseStatement {done : List Statement}
    (h : ts.ComesTo whole finish ending ⟨[], done⟩) (he : ts.lookahead.1.isEnd = false) :
    ComesToStatement whole finish ending done ts.parseStatement := by
  unfold TokenStream.parseStatement
  simp only
  split
  · rename_i hl
    unfold parseOpened
    simp only [next_lookahead, next_fst]
    exact (h.opening hl).parseBody
  · rename_i hl
    by_cases hr : ts.lookahead.1.kind = .symbol .rightBracket
    · obtain ⟨e, after, hs, hlogged⟩ := h.lookahead.stray (by rwa [lookahead_lookahead])
      rw [hs]
      exact hlogged
    · have hend : ts.lookahead.1.kind ≠ .endOfFile := by simpa [Token.isEnd] using he
      obtain ⟨s, after, hs, hafter⟩ := h.parseSingle_lookahead hr hend hl
      rw [hs]
      exact hafter

theorem ComesTo.parseStatements {done : List Statement}
    (h : ts.ComesTo whole finish ending ⟨[], done⟩) :
    match ts.parseStatements done with
    | (.ok p, after) => ∃ events, Program.Recorded p (whole.map Placed.token) events ∧
        after.lexer.log.toList = events ++ ending
    | (.error e, after) =>
      Logged (whole.map Placed.token) finish ending (.error e) after.lexer.log.toList := by
  fun_induction TokenStream.parseStatements done ts
  case case1 done ts seen he =>
    obtain ⟨-, events, hdraft, hlog⟩ := h.recorded_of_end (beq_iff_eq.1 he)
    cases hdraft with
    | outermost hdone => exact ⟨events, hdone, hlog⟩
  case case2 done ts seen he s after hs hlt ih =>
    have hparsed := h.lookahead.parseStatement (by simpa [lookahead_lookahead] using he)
    rw [hs] at hparsed
    exact ih hparsed
  case case3 done ts seen he e after hs =>
    have hparsed := h.lookahead.parseStatement (by simpa [lookahead_lookahead] using he)
    rw [hs] at hparsed
    exact hparsed

theorem logged_parseProgram {source : σ} (h : EndsWith source ending) :
    Logged (symbolTokens (position source) (rest source)) (position source + (rest source).length)
      ending (ofSource source).parseProgram.1
      (ofSource source).parseProgram.2.lexer.log.toList := by
  have hcomes : (ofSource source).ComesTo (Placed.scan (position source) (rest source))
      (position source + (rest source).length) ending Draft.empty :=
    ⟨⟨[], _, [], rfl, records_ofSource h, .outermost .nil, .of_lastOperator?_eq_none rfl _⟩,
      trivial, by simp [Draft.empty]⟩
  have hparsed := hcomes.parseStatements
  rw [symbolTokens_eq]
  unfold parseProgram
  split
  · rename_i p after hp
    rw [hp] at hparsed
    obtain ⟨events, hrecorded, hlog⟩ := hparsed
    rw [log_record, hlog]
    exact .parsed hrecorded
  · rename_i e after hp
    rw [hp] at hparsed
    exact hparsed

end TokenStream

/-- The log of a parse tells of its tokens in order. -/
theorem parse_accounts_for_source :
    (∀ text : String,
      Logged (symbolTokens 0 text.toList) text.length []
        (TokenStream.ofSource (TextSource.ofText text)).parseProgram.1
        (TokenStream.ofSource (TextSource.ofText text)).parseProgram.2.lexer.log.toList) ∧
      ∀ script : List ReadAnswer,
        Logged (symbolTokens 0 ((delivered script).map Char.ofUInt8)) (delivered script).length
          (failureEvents script)
          (TokenStream.ofSource (ByteSource.ofScript script)).parseProgram.1
          (TokenStream.ofSource (ByteSource.ofScript script)).parseProgram.2.lexer.log.toList := by
  constructor
  · intro text
    have hlogged := TokenStream.logged_parseProgram (TextSource.endsWith (.ofText text))
    rwa [show position (TextSource.ofText text) = 0 from rfl, Nat.zero_add] at hlogged
  · intro script
    have hlength : (rest (ByteSource.ofScript script)).length = (delivered script).length :=
      List.length_map _
    have hlogged := TokenStream.logged_parseProgram (ByteSource.endsWith_ofScript script)
    rwa [show position (ByteSource.ofScript script) = 0 from rfl, Nat.zero_add, hlength] at hlogged

example : (TokenStream.ofSource (TextSource.ofText "+[.]")).parseProgram.2.lexer.log =
    #[.scannedToken (.symbol (.operator .increment)) ⟨0, 1⟩,
      .scannedToken (.symbol .leftBracket) ⟨1, 2⟩, .enteringLoop ⟨1, 2⟩,
      .scannedToken (.symbol .dot) ⟨2, 3⟩,
      .scannedToken (.symbol .rightBracket) ⟨3, 4⟩, .leavingLoop ⟨3, 4⟩ 1,
      .parsedProgram 2 1] := by
  decide +kernel

end Brainfuck
