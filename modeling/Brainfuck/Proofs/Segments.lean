import Brainfuck.Proofs.Requests
import Brainfuck.Proofs.Stopping
import Brainfuck.Proofs.Upcoming

/-!
# What requests consume

Whatever is asked of a token stream, and in whatever order, the requests consume the tokens of its
source piece by piece: no token is lost, handed out twice or moved. What a request consumes is said
by the token it shows, by the statements it parses or by the error it ends with.
-/

namespace Brainfuck

open Source

/-- The segment is made of the symbols that the program is written with. -/
def Spells (segment : List Token) (p : Program) : Prop :=
  segment.map Token.kind = (Program.symbols p).map TokenKind.symbol

/-- The segment is all that stands before the end of the source. -/
def UpToEnd (segment : List Token) (left : Stream' Token) : Prop :=
  (∀ t ∈ segment, t.isEnd = false) ∧ left.head.isEnd = true

/-- The last bracket that the segment leaves open was opened at this span. -/
def LastOpenedAt (openedAt : Span) (segment : List Token) : Prop :=
  ∃ j t, segment[j]? = some t ∧ t.span = openedAt ∧ LastOpen (segment.map Token.value) j

inductive TakesSingle : Except ParseError Statement → List Token → Stream' Token → Prop
  | print {t : Token} {left : Stream' Token} : t.kind = .symbol .dot →
      TakesSingle (.ok .print) [t] left
  | input {t : Token} {left : Stream' Token} : t.kind = .symbol .comma →
      TakesSingle (.ok .input) [t] left
  | counted {o : Operator} {t : Token} {run : List Token} {left : Stream' Token} :
      t.kind = .symbol (.operator o) → (∀ u ∈ run, u.kind = .symbol (.operator o)) →
      left.head.kind ≠ .symbol (.operator o) →
      TakesSingle (.ok (.counted o (1 + run.length))) (t :: run) left
  | unexpected {t : Token} {left : Stream' Token} :
      t.kind = .symbol .leftBracket ∨ t.kind = .symbol .rightBracket ∨ t.kind = .endOfFile →
      TakesSingle (.error (.unexpectedToken t)) [t] left

inductive TakesLoop : Except LoopError Statement → List Token → Stream' Token → Prop
  /-- The first token and the last are the two brackets of one loop. -/
  | closed {body : Program} {segment : List Token} {left : Stream' Token} :
      Spells segment [.loop body] →
      Matches (segment.map Token.value) 0 (segment.length - 1) →
      TakesLoop (.ok (.loop body)) segment left
  /-- The first token is a bracket that nothing closes. -/
  | unterminated {openedAt : Span} {segment : List Token} {left : Stream' Token} :
      segment.head?.map Token.kind = some (.symbol .leftBracket) →
      (∀ k, ¬Matches (segment.map Token.value) 0 k) →
      UpToEnd segment left → LastOpenedAt openedAt segment →
      TakesLoop (.error (.body (.unterminatedLoop openedAt left.head.span))) segment left
  | notOpened {t : Token} {left : Stream' Token} : t.kind ≠ .symbol .leftBracket →
      TakesLoop (.error (.notOpened t.kind)) [t] left

inductive TakesProgram : Except ParseError Program → List Token → Stream' Token → Prop
  | whole {p : Program} {segment : List Token} {left : Stream' Token} :
      Spells segment p → UpToEnd segment left → TakesProgram (.ok p) segment left
  | unterminated {openedAt : Span} {segment : List Token} {left : Stream' Token} :
      UpToEnd segment left → LastOpenedAt openedAt segment →
      TakesProgram (.error (.unterminatedLoop openedAt left.head.span)) segment left
  /-- The last token is the first bracket that closes nothing. -/
  | stray {t : Token} {segment : List Token} {left : Stream' Token} :
      t.kind = .symbol .rightBracket → (∀ u ∈ segment, u.isEnd = false) →
      FirstStray ((segment ++ [t]).map Token.value) segment.length →
      TakesProgram (.error (.unexpectedToken t)) (segment ++ [t]) left

/-- What a request consumes, given its answer and the tokens that are left after it. -/
inductive Takes : TokenStream.Request → Answer → List Token → Stream' Token → Prop
  | lookahead {left : Stream' Token} : Takes (.look .lookahead) (.token left.head) [] left
  | next {t : Token} {left : Stream' Token} : Takes (.look .next) (.token t) [t] left
  | single {parsed : Except ParseError Statement} {segment : List Token} {left : Stream' Token} :
      TakesSingle parsed segment left → Takes .parseSingle (.single parsed) segment left
  | loop {parsed : Except LoopError Statement} {segment : List Token} {left : Stream' Token} :
      TakesLoop parsed segment left → Takes .parseLoop (.loop parsed) segment left
  | program {parsed : Except ParseError Program} {segment : List Token} {left : Stream' Token} :
      TakesProgram parsed segment left → Takes .parseProgram (.program parsed) segment left

open Stream' in
/-- Each request, with its answer and the tokens left after it, consumes a segment of what the
request before it left. -/
inductive Segments :
    Stream' Token → List TokenStream.Request → List (Answer × Stream' Token) → Prop
  | nil {start : Stream' Token} : Segments start [] []
  | cons {r : TokenStream.Request} {answer : Answer} {segment : List Token} {left : Stream' Token}
      {rs : List TokenStream.Request} {answers : List (Answer × Stream' Token)} :
      Takes r answer segment left → Segments left rs answers →
      Segments (segment ++ₛ left) (r :: rs) ((answer, left) :: answers)

/-! ## Symbols in place as a segment -/

namespace Placed

theorem map_value_token (ps : List Placed) : (ps.map token).map Token.value = chars ps := by
  rw [List.map_map]
  rfl

theorem spells_of_symbols {ps : List Placed} {p : Program}
    (h : ps.map symbol = Program.symbols p) : Spells (ps.map token) p := by
  rw [Spells, ← h, List.map_map, List.map_map]
  rfl

theorem isEnd_of_mem {ps : List Placed} : ∀ t ∈ ps.map token, t.isEnd = false := by
  intro t ht
  obtain ⟨p, -, rfl⟩ := List.mem_map.1 ht
  exact p.isEnd_token

theorem upToEnd (ps : List Placed) (finish : Nat) : UpToEnd (ps.map token) (tokens finish []) :=
  ⟨isEnd_of_mem, rfl⟩

theorem LastOpened.lastOpenedAt {s : Span} {ps : List Placed} (h : LastOpened s ps) :
    LastOpenedAt s (ps.map token) := by
  obtain ⟨u, p, v, rfl, hp, hs, hv⟩ := h
  refine ⟨u.length, p.token, by simp, hs, ?_⟩
  rw [map_value_token, chars_append, chars_cons_of_open hp,
    show u.length = (chars u).length from (List.length_map _).symm]
  exact lastOpen_of_balanced (chars u) hv

theorem matches_of_loop {ps : List Placed} {body : Program}
    (h : ps.map symbol = (Statement.loop body).symbols) :
    Matches ((ps.map token).map Token.value) 0 ((ps.map token).length - 1) := by
  have hchars : chars ps = '[' :: (Program.chars body ++ ']' :: []) := by
    rw [chars_eq_map_toChar, h]
    exact Statement.chars_loop body
  rw [map_value_token, hchars]
  refine matches_iff_split.2 ⟨[], Program.chars body, [], rfl, rfl, ?_, Program.balanced_chars body⟩
  have := congrArg List.length hchars
  simp [chars] at this ⊢
  omega

theorem firstStray_of_balanced {ps : List Placed} {p : Placed} (h : Balanced (chars ps))
    (hp : p.symbol = .rightBracket) :
    FirstStray ((ps.map token ++ [p.token]).map Token.value) (ps.map token).length := by
  have hchars : (ps.map token ++ [p.token]).map Token.value = chars ps ++ [']'] := by
    rw [← chars_singleton_of_close hp, List.map_append, map_value_token]
    rfl
  rw [hchars, show (ps.map token).length = (chars ps).length by simp [chars]]
  refine ⟨?_, fun k hk => ?_⟩
  · rw [List.take_of_length_le (by simp), balance_append, h.2]
    decide
  · rw [List.take_append_of_le_length hk]
    exact h.1 k

end Placed

/-! ## One request -/

namespace TokenStream

variable {σ : Type} [Source σ] {ts : TokenStream σ} {ps : List Placed} {finish : Nat}

open Stream' in
/-- A result and the stream it leaves: the stream has consumed a segment as the result says. -/
def Consumes {α : Type} (takes : α → List Token → Stream' Token → Prop) (ps : List Placed)
    (finish : Nat) (result : α × TokenStream σ) : Prop :=
  ∃ segment left, Placed.tokens finish ps = segment ++ₛ Placed.tokens finish left ∧
    result.2.Holds left finish ∧ takes result.1 segment (Placed.tokens finish left)

theorem consumes_used {α : Type} {takes : α → List Token → Stream' Token → Prop} {a : α}
    {after : TokenStream σ} {used left : List Placed} (heq : ps = used ++ left)
    (h : after.Holds left finish)
    (ht : takes a (used.map Placed.token) (Placed.tokens finish left)) :
    Consumes takes ps finish (a, after) :=
  ⟨_, left, by rw [heq, Placed.tokens_append], h, ht⟩

theorem consumes_shown {α : Type} {takes : α → List Token → Stream' Token → Prop} {a : α}
    {after : TokenStream σ} (h : after.Holds ps.tail finish)
    (ht : takes a [Placed.shown finish ps] (Placed.tokens finish ps.tail)) :
    Consumes takes ps finish (a, after) :=
  ⟨[Placed.shown finish ps], ps.tail, Placed.tokens_eq_cons finish ps, h, ht⟩

theorem Holds.consumes_parseSingle (h : ts.Holds ps finish) :
    Consumes TakesSingle ps finish ts.parseSingle := by
  have hn := h.next
  rcases hk : (Placed.shown finish ps).kind with (_ | _ | o | _ | _) | _ | _
  case symbol.operator =>
    -- The run goes on to the first symbol that is none of its own.
    obtain ⟨p, rest, rfl, hp⟩ := Placed.cons_of_shown_symbol hk
    obtain ⟨hcount, hrest⟩ := hn.takeRun o 1
    have hused : p :: rest = (p :: rest.takeWhile (·.isOperator o)) ++
        rest.dropWhile (·.isOperator o) := by
      rw [List.cons_append, List.takeWhile_append_dropWhile]
    have hresult : ts.parseSingle = (.ok (.counted o (ts.next.2.takeRun o 1).1),
        (ts.next.2.takeRun o 1).2) := by
      simp only [TokenStream.parseSingle, h.next_fst, hk]
    rw [hresult, hcount, ← List.length_map Placed.token]
    refine consumes_used hused hrest (.counted (by rw [Placed.kind_token, hp]) ?_ ?_)
    · intro u hu
      obtain ⟨q, hq, rfl⟩ := List.mem_map.1 hu
      have := List.all_eq_true.1 List.all_takeWhile q hq
      rw [Placed.kind_token, Placed.isOperator_iff.1 this]
    · intro hmore
      rw [Placed.head_tokens] at hmore
      obtain ⟨q, more, heq, hq⟩ := Placed.cons_of_shown_symbol hmore
      have hnot := List.head?_dropWhile_not (·.isOperator o) rest
      rw [heq] at hnot
      simp [Placed.isOperator, hq] at hnot
  all_goals
    simp only [TokenStream.parseSingle, h.next_fst, hk]
  case symbol.dot => exact consumes_shown hn (.print hk)
  case symbol.comma => exact consumes_shown hn (.input hk)
  case symbol.leftBracket => exact consumes_shown hn (.unexpected (.inl hk))
  case symbol.rightBracket => exact consumes_shown hn (.unexpected (.inr (.inl hk)))
  case comment => cases ps <;> simp [Placed.shown, Token.endOfFile] at hk
  case endOfFile => exact consumes_shown hn (.unexpected (.inr (.inr hk)))

theorem Holds.consumes_parseLoop (h : ts.Holds ps finish) :
    Consumes TakesLoop ps finish ts.parseLoop := by
  unfold TokenStream.parseLoop
  simp only
  split
  · rename_i hk
    obtain ⟨p, rest, rfl, hp⟩ := h.cons_of_symbol hk
    have hparsed := h.lookahead.parseOpened hp (by rwa [lookahead_lookahead]) []
    rcases hresult : ts.lookahead.2.parseOpened (by rwa [lookahead_lookahead])
      with ⟨e | s, after⟩
    · -- The failure has used up the source, in which the bracket is closed nowhere.
      obtain ⟨openedAt, spans, rfl, hopen, hafter⟩ := h.lookahead.parseOpened_error hp _ hresult
      refine consumes_used (List.append_nil _).symm hafter ?_
      refine .unterminated (by simp [hp]) ?_ (Placed.upToEnd _ finish) hopen.lastOpened.lastOpenedAt
      rw [Placed.map_value_token]
      exact hopen.not_matches
    · obtain ⟨body, rfl⟩ := parseBody_eq_ok hresult
      rw [hresult] at hparsed
      obtain ⟨used, left, heq, hput, -, hafter⟩ := hparsed
      have hsymbols := Draft.symbols_of_putAll_push hput
      refine consumes_used heq hafter (.closed ?_ (Placed.matches_of_loop hsymbols))
      exact Placed.spells_of_symbols (by simpa [Program.symbols] using hsymbols)
  · rename_i hk
    rw [next_lookahead, h.lookahead_fst]
    rw [h.lookahead_fst] at hk
    exact consumes_shown h.next (.notOpened hk)

theorem Holds.consumes_parseProgram (h : ts.Holds ps finish) :
    Consumes TakesProgram ps finish ts.parseProgram := by
  unfold TokenStream.parseProgram
  split
  · rename_i p after hp
    obtain ⟨hsymbols, hafter⟩ := h.parseStatements_ok hp
    refine consumes_used (List.append_nil ps).symm (hafter.record (by simp)) ?_
    exact .whole (Placed.spells_of_symbols hsymbols.symm) (Placed.upToEnd ps finish)
  · rename_i e after he
    have hfails := h.parseStatements_error he
    -- The source was used up by an open loop, or the parse stopped at a stray bracket.
    cases e with
    | unterminatedLoop openedAt ended =>
      obtain ⟨hlast, rfl, hafter⟩ := hfails
      refine consumes_used (List.append_nil ps).symm hafter ?_
      exact .unterminated (Placed.upToEnd ps finish) hlast.lastOpenedAt
    | unexpectedToken t =>
      obtain ⟨before, p, left, heq, rfl, hp, hbefore, hafter⟩ := hfails
      refine consumes_used (heq.trans (List.append_cons before p left)) hafter ?_
      rw [List.map_append]
      exact .stray (by rw [Placed.kind_token, hp]) Placed.isEnd_of_mem
        (Placed.firstStray_of_balanced hbefore hp)

theorem Holds.consumes_answer (h : ts.Holds ps finish) (r : Request) :
    Consumes (Takes r) ps finish (ts.answer r) := by
  rcases r with (_ | _) | _ | _ | _
  · refine consumes_used (List.nil_append ps).symm h.lookahead ?_
    rw [h.lookahead_fst, ← Placed.head_tokens]
    exact .lookahead
  · refine consumes_shown h.next ?_
    rw [h.next_fst]
    exact .next
  · obtain ⟨segment, left, heq, hleft, htakes⟩ := h.consumes_parseSingle
    exact ⟨segment, left, heq, hleft, .single htakes⟩
  · obtain ⟨segment, left, heq, hleft, htakes⟩ := h.consumes_parseLoop
    exact ⟨segment, left, heq, hleft, .loop htakes⟩
  · obtain ⟨segment, left, heq, hleft, htakes⟩ := h.consumes_parseProgram
    exact ⟨segment, left, heq, hleft, .program htakes⟩

/-! ## Any sequence of requests -/

theorem Holds.segments (h : ts.Holds ps finish) (requests : List Request) :
    Segments (Placed.tokens finish ps) requests (trace answer upcoming ts requests) := by
  induction requests generalizing ts ps with
  | nil => exact .nil
  | cons r rs ih =>
    obtain ⟨segment, left, heq, hleft, htakes⟩ := h.consumes_answer r
    rw [trace, heq, hleft.upcoming_eq]
    exact .cons htakes (ih hleft)

/-- Requests to a token stream consume consecutive segments of the tokens. -/
theorem requests_consume_segments (source : σ) (requests : List Request) :
    Segments (Source.tokens source) requests
      (trace answer upcoming (ofSource source) requests) := by
  rw [Source.tokens_eq]
  exact (holds_ofSource source).segments requests

end TokenStream

end Brainfuck
