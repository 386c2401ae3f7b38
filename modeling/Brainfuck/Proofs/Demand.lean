import Brainfuck.Proofs.Alike
import Brainfuck.Proofs.Cursor
import Brainfuck.Proofs.Encoded
import Brainfuck.Proofs.Exhaustion
import Brainfuck.Proofs.Segments

/-!
# How much a parse asks for

A parse takes symbols one by one. It never takes the end of its source and only looks at it. So a
source is asked for its characters up to the token that the parse stops at, for none behind it, and
for its end at most once.
-/

namespace Brainfuck

open Source

variable {σ : Type} [Source σ]

theorem Lexer.pulls_next (l : Lexer σ) :
    l.next.2.pulls + position l.source =
      l.pulls + position l.next.2.source + l.next.1.isEnd.toNat := by
  fun_induction next l with
  | case1 l asked h =>
    simp only [asked, pulls_pull, position_pull_of_end h, Token.isEnd_endOfFile, Bool.toNat_true]
    omega
  | case2 l asked c h hs this ih =>
    simp only [asked, pulls_pull, position_pull_of_char h] at ih ⊢
    omega
  | case3 l asked c h s hs token =>
    have hpulls := pulls_pull l
    have hposition := position_pull_of_char h
    simp only [asked, token, record, Token.isEnd_ofSymbol, Bool.toNat_false]
    omega

namespace TokenStream

/-! ## Tokens that are taken -/

/-- The stream comes to be the second one by handing out these tokens, none of them the end. -/
inductive Yields (ts : TokenStream σ) : List Token → TokenStream σ → Prop
  | now : Yields ts [] ts
  | lookahead {taken : List Token} {us : TokenStream σ} : Yields ts taken us →
      Yields ts taken us.lookahead.2
  | next {taken : List Token} {us : TokenStream σ} : Yields ts taken us →
      us.lookahead.1.isEnd = false → Yields ts (taken ++ [us.lookahead.1]) us.next.2
  | record {taken : List Token} {us : TokenStream σ} {e : Event} : Yields ts taken us →
      (∀ kind span, e ≠ .scannedToken kind span) → Yields ts taken (us.record e)

def LeadsTo (ts us : TokenStream σ) : Prop := ∃ taken, ts.Yields taken us

variable {ts us vs : TokenStream σ} {taken more : List Token}

theorem Yields.trans (h : ts.Yields taken us) (h' : us.Yields more vs) :
    ts.Yields (taken ++ more) vs := by
  induction h' with
  | now => rwa [List.append_nil]
  | lookahead _ ih => exact ih.lookahead
  | next _ hmore ih =>
    rw [← List.append_assoc]
    exact ih.next hmore
  | record _ he ih => exact ih.record he

theorem LeadsTo.trans (h : ts.LeadsTo us) (h' : us.LeadsTo vs) : ts.LeadsTo vs := by
  obtain ⟨taken, h⟩ := h
  obtain ⟨more, h'⟩ := h'
  exact ⟨_, h.trans h'⟩

theorem LeadsTo.record (h : ts.LeadsTo us) {e : Event}
    (he : ∀ kind span, e ≠ .scannedToken kind span) : ts.LeadsTo (us.record e) := by
  obtain ⟨taken, h⟩ := h
  exact ⟨_, h.record he⟩

theorem leadsTo_lookahead (ts : TokenStream σ) : ts.LeadsTo ts.lookahead.2 := ⟨_, .lookahead .now⟩

theorem leadsTo_next (h : ts.lookahead.1.isEnd = false) : ts.LeadsTo ts.next.2 := ⟨_, .next .now h⟩

theorem leadsTo_next_of_symbol {s : Symbol} (h : ts.lookahead.1.kind = .symbol s) :
    ts.LeadsTo ts.next.2 :=
  leadsTo_next (by simp [Token.isEnd, h])

theorem Yields.holds (h : ts.Yields taken us) {ps : List Placed} {finish : Nat}
    (hts : ts.Holds ps finish) :
    ∃ used left, ps = used ++ left ∧ taken = used.map Placed.token ∧ us.Holds left finish := by
  induction h with
  | now => exact ⟨[], ps, rfl, rfl, hts⟩
  | lookahead _ ih =>
    obtain ⟨used, left, heq, htaken, hus⟩ := ih
    exact ⟨used, left, heq, htaken, hus.lookahead⟩
  | next _ hmore ih =>
    obtain ⟨used, left, rfl, rfl, hus⟩ := ih
    obtain ⟨p, left, rfl⟩ := hus.cons_of_not_end (by rw [hmore]; exact Bool.false_ne_true)
    refine ⟨used ++ [p], left, List.append_cons .., ?_, hus.next⟩
    rw [hus.lookahead_fst, List.map_append]
    rfl
  | record _ he ih =>
    obtain ⟨used, left, heq, htaken, hus⟩ := ih
    exact ⟨used, left, heq, htaken, hus.record he⟩

/-- A source that has been asked for its characters up to the last token in sight, and for its end
only if that is in sight. -/
structure AskedFor (source : σ) (taken : List Token) (us : TokenStream σ) : Prop where
  pulls_eq : us.lexer.pulls + position source =
    position us.lexer.source + (us.stash.any Token.isEnd).toNat
  position_eq : position us.lexer.source =
    ((us.stash.or taken.getLast?).map (·.span.stop)).getD (position source)

theorem Yields.askedFor {source : σ} (h : (ofSource source).Yields taken us) :
    AskedFor source taken us := by
  induction h with
  | now => exact ⟨Nat.zero_add _, rfl⟩
  | @lookahead taken us _ ih =>
    -- Only a token that is not yet in sight costs the source anything.
    obtain ⟨lexer, _ | token⟩ := us
    · have hpulls := lexer.pulls_next
      have hbefore := ih.pulls_eq
      refine ⟨?_, lexer.position_next⟩
      simp only [TokenStream.lookahead, Option.any_some, Option.any_none, Bool.toNat_false]
        at hbefore ⊢
      omega
    · exact ih
  | @next taken us _ hmore ih =>
    obtain ⟨lexer, _ | token⟩ := us
    · have hpulls := lexer.pulls_next
      have hbefore := ih.pulls_eq
      simp only [TokenStream.lookahead] at hmore
      rw [hmore] at hpulls
      refine ⟨?_, ?_⟩
      · simp only [TokenStream.next, Option.any_none, Bool.toNat_false] at hbefore hpulls ⊢
        omega
      · simp [TokenStream.next, TokenStream.lookahead, lexer.position_next]
    · have hbefore := ih.pulls_eq
      simp only [TokenStream.lookahead] at hmore
      refine ⟨?_, ?_⟩
      · simpa [TokenStream.next, hmore] using hbefore
      · simpa [TokenStream.next, TokenStream.lookahead] using ih.position_eq
  | record _ _ ih => exact ⟨ih.pulls_eq, ih.position_eq⟩

/-! ## Parses -/

/-- What is in sight when a parse fails: the end if it has failed on that, else nothing. -/
inductive StopsWith : ParseError → Option Token → Prop
  | unterminated {openedAt ended : Span} {t : Token} : t.isEnd = true →
      StopsWith (.unterminatedLoop openedAt ended) (some t)
  | unexpected {t : Token} : StopsWith (.unexpectedToken t) none

/-- A parse with its result: it takes symbols only, and fails with the right token in sight. -/
structure Parses {α : Type} (ts : TokenStream σ) (result : Except ParseError α × TokenStream σ) :
    Prop where
  leadsTo : ts.LeadsTo result.2
  stopsWith : ∀ e, result.1 = .error e → StopsWith e result.2.stash

theorem LeadsTo.parses {α : Type} {result : Except ParseError α × TokenStream σ}
    (h : ts.LeadsTo us) (h' : Parses us result) : Parses ts result :=
  ⟨h.trans h'.leadsTo, h'.stopsWith⟩

theorem LeadsTo.parses_ok {α : Type} {a : α} (h : ts.LeadsTo us) :
    Parses ts ((.ok a, us) : Except ParseError α × TokenStream σ) :=
  ⟨h, fun _ he => nomatch he⟩

theorem LeadsTo.parses_error {α : Type} {e : ParseError} (h : ts.LeadsTo us)
    (he : StopsWith e us.stash) :
    Parses ts ((.error e, us) : Except ParseError α × TokenStream σ) := by
  refine ⟨h, ?_⟩
  rintro _ ⟨⟩
  exact he

theorem leadsTo_takeRun (o : Operator) (count : Nat) (ts : TokenStream σ) :
    ts.LeadsTo (ts.takeRun o count).2 := by
  fun_induction takeRun o count ts with
  | case1 count ts seen hk hlt ih =>
    simp only [seen, next_lookahead] at ih ⊢
    exact (leadsTo_next_of_symbol hk).trans ih
  | case2 count ts seen hk => exact leadsTo_lookahead ts

theorem parses_parseSingle (h : ts.lookahead.1.isEnd = false) : Parses ts ts.parseSingle := by
  have hnext := leadsTo_next h
  unfold parseSingle
  simp only
  split
  · exact hnext.parses_ok
  · exact hnext.parses_ok
  · exact (hnext.trans (leadsTo_takeRun ..)).parses_ok
  · refine hnext.parses_error ?_
    rw [stash_next]
    exact .unexpected

theorem parses_parseSingle_lookahead (ts : TokenStream σ) (h : ts.lookahead.1.isEnd = false) :
    Parses ts ts.lookahead.2.parseSingle :=
  (leadsTo_lookahead ts).parses (parses_parseSingle (by rwa [lookahead_lookahead]))

theorem parses_parseBody (inner : OpenLoop) (outer : List OpenLoop) (ts : TokenStream σ) :
    Parses ts (ts.parseBody inner outer) := by
  fun_induction parseBody inner outer ts with
  | case1 inner ts seen hk hlt left =>
    simp only [left, seen, next_lookahead]
    exact ((leadsTo_next_of_symbol hk).record (by simp)).parses_ok
  | case2 inner ts seen hk hlt left around outer ih =>
    simp only [left, seen, next_lookahead] at ih ⊢
    exact ((leadsTo_next_of_symbol hk).record (by simp)).parses ih
  | case3 inner outer ts seen hk =>
    refine (leadsTo_lookahead ts).parses_error ?_
    rw [stash_lookahead]
    exact .unterminated (by simpa [Token.isEnd] using hk)
  | case4 inner outer ts seen hk hlt ih =>
    simp only [seen, next_lookahead] at ih ⊢
    exact ((leadsTo_next_of_symbol hk).record (by simp)).parses ih
  | case5 inner outer ts seen s after hs hlt hle hr he hl ih =>
    have hsingle := parses_parseSingle_lookahead ts (by simpa [Token.isEnd] using he)
    rw [hs] at hsingle
    exact hsingle.leadsTo.parses ih
  | case6 inner outer ts seen e after hs hr he hl =>
    have hsingle := parses_parseSingle_lookahead ts (by simpa [Token.isEnd] using he)
    rw [hs] at hsingle
    exact hsingle.leadsTo.parses_error (hsingle.stopsWith e rfl)

theorem parses_parseOpened (h : ts.lookahead.1.kind = .symbol .leftBracket) :
    Parses ts (ts.parseOpened h) := by
  unfold parseOpened
  exact ((leadsTo_next_of_symbol h).record (by simp)).parses (parses_parseBody ..)

theorem parses_parseStatement (ts : TokenStream σ) (h : ts.lookahead.1.isEnd = false) :
    Parses ts ts.parseStatement := by
  unfold parseStatement
  simp only
  split
  · exact (leadsTo_lookahead ts).parses (parses_parseOpened _)
  · exact parses_parseSingle_lookahead ts h

theorem parses_parseStatements (done : List Statement) (ts : TokenStream σ) :
    Parses ts (ts.parseStatements done) := by
  fun_induction parseStatements done ts with
  | case1 done ts seen he => exact (leadsTo_lookahead ts).parses_ok
  | case2 done ts seen he s after hs hlt ih =>
    have hstatement := parses_parseStatement seen.2 (by simpa [seen] using he)
    rw [hs] at hstatement
    exact ((leadsTo_lookahead ts).trans hstatement.leadsTo).parses ih
  | case3 done ts seen he e after hs =>
    have hstatement := parses_parseStatement seen.2 (by simpa [seen] using he)
    rw [hs] at hstatement
    exact ((leadsTo_lookahead ts).trans hstatement.leadsTo).parses_error
      (hstatement.stopsWith e rfl)

theorem parses_parseProgram (ts : TokenStream σ) : Parses ts ts.parseProgram := by
  have hparsed := parses_parseStatements [] ts
  unfold parseProgram
  split
  · rename_i p after hp
    rw [hp] at hparsed
    exact (hparsed.leadsTo.record (by simp)).parses_ok
  · rename_i e after hp
    rw [hp] at hparsed
    exact hparsed.leadsTo.parses_error (hparsed.stopsWith e rfl)

theorem stash_of_parseProgram {p : Program} (h : ts.parseProgram = (.ok p, us)) :
    ∃ t, us.stash = some t ∧ t.isEnd = true := by
  unfold parseProgram at h
  split at h
  · rename_i q after hq
    have hstash := stash_of_parseStatements hq
    cases h
    exact hstash
  · cases h

theorem stash_of_parseBody {inner : OpenLoop} {outer : List OpenLoop} {s : Statement}
    (h : ts.parseBody inner outer = (.ok s, us)) : us.stash = none := by
  fun_induction parseBody inner outer ts
  case case1 inner ts seen hk hlt left =>
    rw [← (Prod.mk.inj h).2]
    exact stash_next seen.2
  case case2 ih => exact ih h
  case case3 => cases h
  case case4 ih => exact ih h
  case case5 ih => exact ih h
  case case6 => cases h

end TokenStream

/-! ## Symbols of a text -/

namespace Placed

theorem getElem?_of_mem_scan {p : Placed} {offset : Nat} {text : List Char}
    (h : p ∈ scan offset text) :
    ∃ k, p.offset = offset + k ∧ text[k]? = some p.symbol.toChar := by
  induction text generalizing offset with
  | nil => cases h
  | cons c text ih =>
    have hlater (hp : p ∈ scan (offset + 1) text) :
        ∃ k, p.offset = offset + k ∧ (c :: text)[k]? = some p.symbol.toChar := by
      obtain ⟨k, hk, hc⟩ := ih hp
      exact ⟨k + 1, by omega, hc⟩
    cases hs : Symbol.ofChar? c with
    | none => exact hlater (by rwa [scan_cons_of_comment hs] at h)
    | some s =>
      rw [scan_cons_of_symbol hs] at h
      rcases List.mem_cons.1 h with rfl | hp
      · exact ⟨0, rfl, congrArg some (Symbol.ofChar?_eq_some_iff.1 hs)⟩
      · exact hlater hp

theorem chars_scan (offset : Nat) (text : List Char) :
    chars (scan offset text) = text.filter (· ∈ symbolChars) := by
  rw [chars_eq_map_toChar, map_symbol_scan, map_toChar_filterMap_ofChar?]

end Placed

theorem balance_filter (text : List Char) :
    balance (text.filter (· ∈ symbolChars)) = balance text := by
  unfold balance
  rw [List.count_filter (by decide), List.count_filter (by decide)]

theorem Balanced.chars_scan {text : List Char} (h : Balanced text) (offset : Nat) :
    Balanced (Placed.chars (Placed.scan offset text)) := by
  rw [Placed.chars_scan]
  refine ⟨fun k => ?_, (balance_filter text).trans h.2⟩
  obtain ⟨before, hbefore, heq⟩ := List.prefix_filter_iff.1 (List.take_prefix k _)
  rw [heq, balance_filter, List.prefix_iff_eq_take.1 hbefore]
  exact h.1 _

namespace Placed

theorem chars_loop {opening closing : Placed} (ho : opening.symbol = .leftBracket)
    (hc : closing.symbol = .rightBracket) (inside behind : List Placed) :
    chars (opening :: (inside ++ closing :: behind)) =
      '[' :: (chars inside ++ ']' :: chars behind) := by
  have hclose : chars (closing :: behind) = ']' :: chars behind := by
    rw [← List.singleton_append, chars_append, chars_singleton_of_close hc]
    rfl
  rw [chars_cons_of_open ho, chars_append, hclose]

theorem matches_enclosed {opening closing : Placed} (ho : opening.symbol = .leftBracket)
    (hc : closing.symbol = .rightBracket) {inside : List Placed} (h : Balanced (chars inside))
    (behind : List Placed) :
    Matches (chars (opening :: (inside ++ closing :: behind))) 0 (inside.length + 1) := by
  rw [chars_loop ho hc]
  refine matches_iff_split.2 ⟨[], chars inside, chars behind, rfl, rfl, ?_, h⟩
  rw [chars, List.length_map, Nat.zero_add, Nat.add_comm]

/-- A loop ends at the bracket that closes it. -/
theorem used_of_loop {opening closing : Placed} (ho : opening.symbol = .leftBracket)
    (hc : closing.symbol = .rightBracket) {inside : List Placed} (h : Balanced (chars inside))
    {behind used left : List Placed} {body : Program}
    (heq : opening :: (inside ++ closing :: behind) = used ++ left)
    (hused : used.map symbol = (Statement.loop body).symbols) :
    used = opening :: (inside ++ [closing]) ∧ left = behind := by
  have hown := matches_enclosed ho hc h behind
  have hparsed : Matches (chars (used ++ left)) 0 ((Program.chars body).length + 1) := by
    have hchars : chars used = '[' :: (Program.chars body ++ [']']) := by
      rw [chars_eq_map_toChar, hused]
      exact Statement.chars_loop body
    refine matches_iff_split.2 ⟨[], Program.chars body, chars left, ?_, rfl, by omega,
      Program.balanced_chars body⟩
    rw [chars_append, hchars]
    simp
  rw [heq] at hown
  -- The first bracket is closed once, so both ways to split the symbols end there.
  have hlength : used.length = inside.length + 2 := by
    have hclosing : inside.length + 1 = (Program.chars body).length + 1 :=
      hown.closing_unique hparsed
    have hcount := congrArg List.length hused
    simp only [Statement.symbols, List.length_map, List.length_cons, List.length_append,
      List.length_nil] at hcount
    rw [Program.chars, List.length_map] at hclosing
    omega
  have hsplit : (opening :: (inside ++ [closing])) ++ behind = used ++ left := by
    rw [← heq]
    simp
  obtain ⟨hfirst, hrest⟩ := List.append_inj hsplit (by simp [hlength])
  exact ⟨hfirst.symm, hrest.symm⟩

end Placed

/-! ## Texts -/

namespace TokenStream

variable {text : String} {after : TokenStream TextSource}

theorem supplied_of_end (h : (ofSource (TextSource.ofText text)).LeadsTo after) {t : Token}
    (ht : after.stash = some t) (hend : t.isEnd = true) :
    after.supplied = (text.length + 1, text.length) := by
  obtain ⟨taken, h⟩ := h
  obtain ⟨used, left, -, -, hleft⟩ := h.holds (holds_text text)
  have hstop : t.span.stop = text.length := by
    obtain rfl := hleft.stash_eq t ht
    cases left with
    | nil => rfl
    | cons p left => simp [Placed.shown] at hend
  have hposition : position after.lexer.source = text.length := by
    rw [h.askedFor.position_eq, ht]
    exact hstop
  have hpulls : after.lexer.pulls = text.length + 1 := by
    have hpulls := h.askedFor.pulls_eq
    rwa [hposition, ht, Option.any_some, hend] at hpulls
  exact Prod.ext hpulls hposition

theorem supplied_of_taken (h : (ofSource (TextSource.ofText text)).LeadsTo after)
    (hstash : after.stash = none) {before left : List Placed} {p : Placed}
    (heq : symbolsOf text = before ++ p :: left) (hleft : after.Holds left text.length) :
    after.supplied = (p.offset + 1, p.offset + 1) := by
  obtain ⟨taken, h⟩ := h
  obtain ⟨used, left', heq', rfl, hleft'⟩ := h.holds (holds_text text)
  obtain rfl : left = left' := by
    have hpending := hleft.pending_eq
    rw [hleft'.pending_eq] at hpending
    simpa [hstash] using hpending.symm
  obtain rfl : used = before ++ [p] :=
    List.append_cancel_right (heq'.symm.trans (heq.trans (List.append_cons ..)))
  have hposition : position after.lexer.source = p.offset + 1 := by
    rw [h.askedFor.position_eq, hstash, List.map_append]
    simp [Placed.token, Placed.span]
  have hpulls : after.lexer.pulls = p.offset + 1 := by
    have hpulls := h.askedFor.pulls_eq
    rwa [hposition, hstash, Option.any_none] at hpulls
  exact Prod.ext hpulls hposition

theorem parseStatements_of_parseProgram {e : ParseError} {ts us : TokenStream σ}
    (h : ts.parseProgram = (.error e, us)) : ts.parseStatements [] = (.error e, us) := by
  unfold parseProgram at h
  split at h
  · cases h
  · rename_i hs
    rw [hs]
    exact h

end TokenStream

/-- What a parse with this result has to ask of a source of this text: so many calls, which supply so
many characters. -/
inductive Demands (text : List Char) : Except ParseError Program → Nat × Nat → Prop
  | whole {p : Program} : Demands text (.ok p) (text.length + 1, text.length)
  | unterminated {openedAt ended : Span} :
      Demands text (.error (.unterminatedLoop openedAt ended)) (text.length + 1, text.length)
  /-- What follows the bracket is not asked for. -/
  | stray {i : Nat} : text[i]? = some ']' →
      Demands text (.error (.unexpectedToken ⟨⟨i, i + 1⟩, .symbol .rightBracket, ']'⟩))
        (i + 1, i + 1)

open TokenStream Placed in
theorem demands_parseProgram (text : String) :
    Demands text.toList (ofSource (TextSource.ofText text)).parseProgram.1
      (ofSource (TextSource.ofText text)).parseProgram.2.supplied := by
  have hparses := parses_parseProgram (ofSource (TextSource.ofText text))
  rcases hresult : (ofSource (TextSource.ofText text)).parseProgram with ⟨e | p, after⟩
  · rw [hresult] at hparses
    have hfails := (holds_text text).parseStatements_error (parseStatements_of_parseProgram hresult)
    have hstops := hparses.stopsWith e rfl
    -- A parse fails at the end, which is still in sight then, or at a token it has taken.
    cases hstash : after.stash with
    | some t =>
      rw [hstash] at hstops
      cases hstops with
      | unterminated hend =>
        rw [supplied_of_end hparses.leadsTo hstash hend]
        exact .unterminated
    | none =>
      rw [hstash] at hstops
      cases hstops with
      | unexpected =>
        obtain ⟨before, ⟨symbol, i⟩, left, heq, rfl, rfl, -, hleft⟩ := hfails
        obtain ⟨k, hk, hchar⟩ :=
          getElem?_of_mem_scan (heq ▸ List.mem_append_right before List.mem_cons_self)
        rw [supplied_of_taken hparses.leadsTo hstash heq hleft]
        exact .stray (by rwa [hk, Nat.zero_add])
  · rw [hresult] at hparses
    obtain ⟨t, ht, hend⟩ := stash_of_parseProgram hresult
    rw [supplied_of_end hparses.leadsTo ht hend]
    exact .whole

open TokenStream Placed in
/-- The first loop is parsed from its own text alone. -/
theorem demands_parseLoop {text : String} {i j : Nat}
    (hcomments : ∀ c ∈ text.toList.take i, Symbol.ofChar? c = none)
    (hmatches : Matches text.toList i j) :
    (∃ body, (ofSource (TextSource.ofText text)).parseLoop.1 = .ok (.loop body)) ∧
      (ofSource (TextSource.ofText text)).parseLoop.2.supplied = (j + 1, j + 1) := by
  obtain ⟨u, v, w, htext, rfl, rfl, hv⟩ := matches_iff_split.1 hmatches
  rw [htext, List.take_left] at hcomments
  have hscan : symbolsOf text = ⟨.leftBracket, u.length⟩ :: (scan (u.length + 1) v ++
      ⟨.rightBracket, u.length + 1 + v.length⟩ :: scan (u.length + 1 + v.length + 1) w) := by
    rw [symbolsOf, htext, scan_append, scan_of_comments hcomments, List.nil_append, Nat.zero_add,
      scan_cons_of_symbol (s := .leftBracket) rfl, scan_append,
      scan_cons_of_symbol (s := .rightBracket) rfl]
  have hholds := holds_text text
  rw [hscan] at hholds
  have hk : (ofSource (TextSource.ofText text)).lookahead.1.kind = .symbol .leftBracket :=
    hholds.kind_lookahead
  have hinside := hv.chars_scan (u.length + 1)
  have hk' : (ofSource (TextSource.ofText text)).lookahead.2.lookahead.1.kind =
      .symbol .leftBracket := by rwa [lookahead_lookahead]
  have hparses := (leadsTo_lookahead _).parses (parses_parseOpened hk')
  have hparsed := hholds.lookahead.parseOpened rfl hk' []
  unfold parseLoop
  simp only
  rw [dif_pos hk]
  rcases hresult : (ofSource (TextSource.ofText text)).lookahead.2.parseOpened hk'
    with ⟨e | s, after⟩
  · -- The bracket would stay open if this failed.
    obtain ⟨openedAt, spans, -, hopen, -⟩ := hholds.lookahead.parseOpened_error rfl hk' hresult
    exact absurd (matches_enclosed rfl rfl hinside _) (hopen.not_matches _)
  · obtain ⟨body, rfl⟩ := parseBody_eq_ok hresult
    rw [hresult] at hparses hparsed
    obtain ⟨used, left, heq, hput, -, hafter⟩ := hparsed
    obtain ⟨rfl, rfl⟩ :=
      used_of_loop rfl rfl hinside heq (Draft.symbols_of_putAll_push hput)
    refine ⟨⟨body, rfl⟩, ?_⟩
    rw [← List.cons_append] at hscan
    exact supplied_of_taken hparses.leadsTo (stash_of_parseBody hresult) hscan hafter

/-- A parse asks for nothing behind the token that it stops at. -/
theorem parsing_asks_for_no_more_than_it_needs (text : String) :
    let fresh := TokenStream.ofSource (TextSource.ofText text)
    Demands text.toList fresh.parseProgram.1 fresh.parseProgram.2.supplied ∧
      ∀ i j, (∀ c ∈ text.toList.take i, Symbol.ofChar? c = none) → Matches text.toList i j →
        (∃ body, fresh.parseLoop.1 = .ok (.loop body)) ∧
          fresh.parseLoop.2.supplied = (j + 1, j + 1) :=
  ⟨demands_parseProgram text, fun _ _ hcomments hmatches => demands_parseLoop hcomments hmatches⟩

end Brainfuck
