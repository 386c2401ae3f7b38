import Brainfuck.Proofs.Parsing
import Mathlib.Data.List.Chain
import Mathlib.Tactic.Tauto

/-!
# Folded programs

A program is folded when its runs are as long as they can be. A text holds exactly one program that
is folded and written with the symbols of the text, and the parser finds it.
-/

namespace Brainfuck

def Statement.Apart : Statement → Statement → Prop
  | .counted o _, .counted p _ => o ≠ p
  | _, _ => True

theorem Statement.Apart.symm {s t : Statement} (h : s.Apart t) : t.Apart s := by
  cases s <;> cases t <;> first | trivial | exact Ne.symm h

mutual

def Statement.Folded : Statement → Prop
  | .counted _ count => 1 ≤ count
  | .loop body => Program.Folded body
  | .print | .input => True

/-- At every depth all counts are at least 1 and no two neighbours are runs of one operator. -/
def Program.Folded : Program → Prop
  | [] => True
  | s :: rest => s.Folded ∧ (∀ t ∈ rest.head?, s.Apart t) ∧ Program.Folded rest

end

namespace Program

theorem folded_iff_isChain (p : Program) :
    Folded p ↔ (∀ s ∈ p, s.Folded) ∧ p.IsChain Statement.Apart := by
  induction p with
  | nil => simp [Folded]
  | cons s rest ih =>
    rw [Folded, ih, List.isChain_cons, List.forall_mem_cons]
    tauto

theorem folded_reverse (p : Program) : Folded p.reverse ↔ Folded p := by
  have hflip : (fun s t => Statement.Apart t s) = Statement.Apart := by
    funext s t
    exact propext ⟨.symm, .symm⟩
  rw [folded_iff_isChain, folded_iff_isChain, List.isChain_reverse, hflip]
  simp

end Program

namespace Draft

/-! ## What a draft is written with -/

/-- The symbols up to the start of the innermost block. -/
def symbolsBefore (done : List Statement) : List OpenLoop → List Symbol
  | [] => []
  | _ :: outer => symbolsBefore done outer ++
      Program.symbols (block ⟨outer, done⟩).reverse ++ [.leftBracket]

def symbols (d : Draft) : List Symbol :=
  symbolsBefore d.done d.loops ++ Program.symbols d.block.reverse

theorem symbols_withBlock (d : Draft) (b : List Statement) :
    (d.withBlock b).symbols = symbolsBefore d.done d.loops ++ Program.symbols b.reverse := by
  rcases d with ⟨_ | ⟨l, outer⟩, done⟩ <;> rfl

theorem symbols_push (d : Draft) (s : Statement) :
    (d.push s).symbols = d.symbols ++ s.symbols := by
  rw [push, symbols_withBlock, symbols, List.reverse_cons, Program.symbols_append]
  simp [Program.symbols]

theorem symbols_joined (o : Operator) (b : List Statement) :
    Program.symbols (joined o b).reverse = Program.symbols b.reverse ++ [.operator o] := by
  unfold joined
  split
  · rename_i p n before
    by_cases h : p = o
    · subst h
      simp [Program.symbols_append, Program.symbols, Statement.symbols, List.replicate_succ']
    · simp [if_neg h, Program.symbols_append, Program.symbols, Statement.symbols]
  · simp [Program.symbols_append, Program.symbols, Statement.symbols]

theorem symbols_put {d next : Draft} {p : Placed} (h : d.put p = .ok next) :
    next.symbols = d.symbols ++ [p.symbol] := by
  rcases p with ⟨_ | _ | o | _ | _, offset⟩
  · cases h
    exact symbols_push d .print
  · cases h
    exact symbols_push d .input
  · cases h
    rw [symbols_withBlock, symbols_joined, ← List.append_assoc]
    rfl
  · cases h
    simp [symbols, symbolsBefore, block, OpenLoop.opened, Program.symbols]
  · rcases d with ⟨_ | ⟨l, outer⟩, done⟩
    · simp [put] at h
    · cases h
      rw [symbols_push, OpenLoop.close, Statement.symbols]
      simp [symbols, symbolsBefore, block]

theorem symbols_putAll {d last : Draft} {ps : List Placed} (h : d.putAll ps = .ok last) :
    last.symbols = d.symbols ++ ps.map Placed.symbol := by
  induction ps generalizing d with
  | nil =>
    cases h
    simp
  | cons p ps ih =>
    cases hp : d.put p with
    | error stray =>
      rw [putAll_cons_of_error hp] at h
      contradiction
    | ok next =>
      rw [putAll_cons_of_ok hp] at h
      rw [ih h, symbols_put hp, List.map_cons, List.append_assoc, List.singleton_append]

/-! ## A draft is folded -/

/-- Every open block is folded as far as it goes. -/
structure Folded (d : Draft) : Prop where
  done : Program.Folded d.done
  loops : ∀ l ∈ d.loops, Program.Folded l.statements

theorem folded_joined (o : Operator) {b : List Statement} (h : Program.Folded b) :
    Program.Folded (joined o b) := by
  rcases b with _ | ⟨_ | _ | ⟨p, n⟩ | body, before⟩
  · simp [joined, Program.Folded, Statement.Folded]
  · simpa [joined, Program.Folded, Statement.Folded, Statement.Apart] using h
  · simpa [joined, Program.Folded, Statement.Folded, Statement.Apart] using h
  · by_cases hp : p = o
    · -- The run grows, and what stands before it is as far apart as it was.
      subst hp
      rw [joined, if_pos rfl]
      obtain ⟨-, hapart, hbefore⟩ := h
      refine ⟨Nat.succ_le_succ (Nat.zero_le n), fun t ht => ?_, hbefore⟩
      have := hapart t ht
      cases t <;> trivial
    · rw [joined, if_neg hp]
      refine ⟨Nat.le_refl 1, ?_, h⟩
      rintro t ⟨⟩
      exact Ne.symm hp
  · simpa [joined, Program.Folded, Statement.Folded, Statement.Apart] using h

variable {d next : Draft}

theorem Folded.block (h : d.Folded) : Program.Folded d.block := by
  rcases d with ⟨_ | ⟨l, outer⟩, done⟩
  · exact h.done
  · exact h.loops l List.mem_cons_self

theorem Folded.withBlock (h : d.Folded) {b : List Statement} (hb : Program.Folded b) :
    (d.withBlock b).Folded := by
  rcases d with ⟨_ | ⟨l, outer⟩, done⟩
  · exact ⟨hb, h.loops⟩
  · refine ⟨h.done, ?_⟩
    intro l' hl'
    rcases List.mem_cons.1 hl' with rfl | hl'
    · exact hb
    · exact h.loops l' (List.mem_cons_of_mem l hl')

theorem Folded.push (h : d.Folded) {s : Statement} (hs : s.Folded)
    (ha : ∀ t : Statement, s.Apart t) : (d.push s).Folded :=
  h.withBlock ⟨hs, fun t _ => ha t, h.block⟩

theorem Folded.put (h : d.Folded) {p : Placed} (hp : d.put p = .ok next) : next.Folded := by
  rcases p with ⟨_ | _ | o | _ | _, offset⟩
  · cases hp
    exact h.push trivial fun t => by cases t <;> trivial
  · cases hp
    exact h.push trivial fun t => by cases t <;> trivial
  · cases hp
    exact h.withBlock (folded_joined o h.block)
  · cases hp
    refine ⟨h.done, ?_⟩
    intro l hl
    rcases List.mem_cons.1 hl with rfl | hl
    · trivial
    · exact h.loops l hl
  · rcases d with ⟨_ | ⟨l, outer⟩, done⟩
    · simp [Draft.put] at hp
    · cases hp
      have houter : Folded ⟨outer, done⟩ :=
        ⟨h.done, fun l' hl' => h.loops l' (List.mem_cons_of_mem l hl')⟩
      have hbody : Program.Folded l.statements.reverse :=
        (Program.folded_reverse _).2 (h.loops l List.mem_cons_self)
      exact houter.push hbody fun t => by cases t <;> trivial

theorem Folded.putAll {last : Draft} {ps : List Placed} (h : d.Folded)
    (hps : d.putAll ps = .ok last) : last.Folded := by
  induction ps generalizing d with
  | nil =>
    cases hps
    exact h
  | cons p ps ih =>
    cases hp : d.put p with
    | error stray =>
      rw [putAll_cons_of_error hp] at hps
      contradiction
    | ok next =>
      rw [putAll_cons_of_ok hp] at hps
      exact ih (h.put hp) hps

end Draft

/-! ## A folded program is put together from its symbols -/

open Draft in
theorem Draft.lastOperator?_ne_of_apart {b : List Statement} {o : Operator} {n : Nat}
    (h : ∀ t ∈ b.head?, t.Apart (.counted o n)) : lastOperator? b ≠ some o := by
  rcases b with _ | ⟨_ | _ | ⟨p, m⟩ | body, before⟩
  · simp [lastOperator?]
  · simp [lastOperator?]
  · simp [lastOperator?]
  · have hp : p ≠ o := h _ rfl
    simpa [lastOperator?] using hp
  · simp [lastOperator?]

mutual

theorem Statement.putAll_symbols (s : Statement) (hs : s.Folded) (d : Draft) (ps : List Placed)
    (hps : ps.map Placed.symbol = s.symbols) (hd : ∀ t ∈ d.block.head?, t.Apart s) :
    d.putAll ps = .ok (d.push s) := by
  cases s with
  | print =>
    obtain ⟨⟨_, offset⟩, rfl, rfl⟩ := List.map_eq_singleton_iff.1 hps
    rfl
  | input =>
    obtain ⟨⟨_, offset⟩, rfl, rfl⟩ := List.map_eq_singleton_iff.1 hps
    rfl
  | counted o n =>
    have hlen : ps.length = n := by simpa [Statement.symbols] using congrArg List.length hps
    have hall : ∀ p ∈ ps, p.symbol = .operator o := by
      intro p hp
      have := List.mem_map_of_mem (f := Placed.symbol) hp
      rw [hps, Statement.symbols] at this
      exact List.eq_of_mem_replicate this
    cases ps with
    | nil => exact absurd hs (by simp [Statement.Folded, ← hlen])
    | cons p ps =>
      -- The statement before is apart, so the first symbol begins a new run.
      rw [Draft.putAll_new_run (Draft.lastOperator?_ne_of_apart hd) (hall p List.mem_cons_self)
        fun q hq => hall q (List.mem_cons_of_mem p hq), ← hlen, List.length_cons, Nat.add_comm]
  | loop body =>
    rw [Statement.symbols] at hps
    obtain ⟨p, rest, rfl, hp, hrest⟩ := List.map_eq_cons_iff.1 hps
    obtain ⟨inside, last, rfl, hinside, hlast⟩ := List.map_eq_append_iff.1 hrest
    obtain ⟨r, rfl, hr⟩ := List.map_eq_singleton_iff.1 hlast
    have hbody := Program.putAll_symbols body hs ⟨.opened p.span :: d.loops, d.done⟩ inside hinside
      (by simp [Draft.block, OpenLoop.opened])
    rw [Draft.putAll_cons_of_ok (Draft.put_leftBracket hp), Draft.putAll_append_of_ok hbody,
      Draft.putAll_cons_of_ok (Draft.put_rightBracket hr rfl), Draft.putAll]
    simp [OpenLoop.close, Draft.block, OpenLoop.opened, Draft.push, Draft.withBlock]

theorem Program.putAll_symbols (p : Program) (hp : Program.Folded p) (d : Draft)
    (ps : List Placed) (hps : ps.map Placed.symbol = Program.symbols p)
    (hd : ∀ s ∈ p.head?, ∀ t ∈ d.block.head?, t.Apart s) :
    d.putAll ps = .ok (d.withBlock (p.reverse ++ d.block)) := by
  cases p with
  | nil =>
    obtain rfl := List.map_eq_nil_iff.1 hps
    simp [Draft.putAll]
  | cons s rest =>
    obtain ⟨hs, hapart, hrest⟩ := hp
    obtain ⟨first, more, rfl, hfirst, hmore⟩ := List.map_eq_append_iff.1 hps
    have hput := Statement.putAll_symbols s hs d first hfirst (hd s rfl)
    rw [Draft.putAll_append_of_ok hput, Program.putAll_symbols rest hrest (d.push s) more hmore
      (by simpa using hapart)]
    simp [Draft.push]

end

/-! ## The grammar -/

theorem Draft.complete_eq_ok_iff (ps : List Placed) (finish : Nat) (p : Program) :
    empty.complete ps finish = .ok p ↔
      Program.symbols p = ps.map Placed.symbol ∧ Program.Folded p := by
  constructor
  · intro h
    unfold complete at h
    split at h
    · rename_i last hlast
      have hsymbols := symbols_putAll hlast
      have hfolded : last.Folded :=
        Folded.putAll (d := empty) ⟨trivial, by simp [empty]⟩ hlast
      rcases last with ⟨_ | ⟨l, outer⟩, done⟩
      · cases h
        exact ⟨hsymbols, (Program.folded_reverse done).2 hfolded.done⟩
      · contradiction
    · contradiction
  · rintro ⟨hsymbols, hfolded⟩
    rw [complete, Program.putAll_symbols p hfolded empty ps hsymbols.symm (by simp [empty, block])]
    simp [empty, block, withBlock, toProgram]

theorem parse_eq_ok_iff_symbols (text : String) (p : Program) :
    parse text = .ok p ↔
      Program.symbols p = text.toList.filterMap Symbol.ofChar? ∧ Program.Folded p := by
  rw [parse_eq_complete, Draft.complete_eq_ok_iff, symbolsOf, Placed.map_symbol_scan]

def symbolChars : List Char := ['<', '>', '+', '-', '.', ',', '[', ']']

theorem Symbol.toChar_mem_symbolChars (s : Symbol) : s.toChar ∈ symbolChars := by
  rcases s with _ | _ | ⟨_ | _ | _ | _⟩ | _ | _ <;> decide

theorem not_mem_symbolChars {c : Char} (h : Symbol.ofChar? c = none) : c ∉ symbolChars := by
  intro hc
  simp only [symbolChars, List.mem_cons, List.not_mem_nil, or_false] at hc
  rcases hc with rfl | rfl | rfl | rfl | rfl | rfl | rfl | rfl <;> contradiction

theorem map_toChar_filterMap_ofChar? (text : List Char) :
    (text.filterMap Symbol.ofChar?).map Symbol.toChar = text.filter (· ∈ symbolChars) := by
  induction text with
  | nil => rfl
  | cons c text ih =>
    cases h : Symbol.ofChar? c with
    | none =>
      rw [List.filterMap_cons_none h, ih, List.filter_cons_of_neg]
      simpa using not_mem_symbolChars h
    | some s =>
      obtain rfl := Symbol.ofChar?_eq_some_iff.1 h
      rw [List.filterMap_cons_some h, List.map_cons, ih, List.filter_cons_of_pos]
      simpa using s.toChar_mem_symbolChars

theorem Symbol.toChar_injective : Function.Injective Symbol.toChar := by
  intro s t h
  exact Option.some.inj ((ofChar?_toChar s).symm.trans (h ▸ ofChar?_toChar t))

/-- The parser accepts the texts of folded programs, with comments anywhere. -/
theorem parse_eq_ok_iff (text : String) (p : Program) :
    parse text = .ok p ↔
      (Program.text p).toList = text.toList.filter (· ∈ symbolChars) ∧ Program.Folded p := by
  rw [parse_eq_ok_iff_symbols, ← map_toChar_filterMap_ofChar?, Program.text, String.toList_ofList,
    List.map_inj_right Symbol.toChar_injective]

end Brainfuck
