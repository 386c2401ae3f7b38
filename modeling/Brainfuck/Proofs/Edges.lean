import Brainfuck.Proofs.Drawings
import Mathlib.Data.List.Chain

/-!
# Edges of a drawing

Cut into cells, the lines of a drawing make up columns. In each column a cell that leads down has one
below it that leads up, and the other way round, so that no edge of the tree is broken off or ends
beside its node.
-/

namespace Brainfuck

namespace Edge

/-- The edge goes on in the line below. -/
def leadsDown : Edge → Bool
  | bar | branch => true
  | gap | corner => false

/-- The edge comes from the line above. -/
def leadsUp : Edge → Bool
  | bar | branch | corner => true
  | gap => false

/-- The edge leads to the statement of its own line. -/
def isArm : Edge → Bool
  | branch | corner => true
  | bar | gap => false

end Edge

namespace Drawing

/-! ## Cells -/

/-- Cuts a line into cells of four characters, up to the first letter of a name. -/
def cutCells : List Char → List (List Char) × List Char
  | a :: b :: c :: d :: rest =>
    if a.isAlpha then ([], a :: b :: c :: d :: rest)
    else ([a, b, c, d] :: (cutCells rest).1, (cutCells rest).2)
  | name => ([], name)

/-- The edge that a cell is drawn for. -/
def edge? (cell : List Char) : Option Edge :=
  [.bar, .gap, .branch, .corner].find? (·.text.toList = cell)

def treeLine? (line : List Char) : Option TreeLine :=
  ((cutCells line).1.mapM edge?).map (⟨·, String.ofList (cutCells line).2⟩)

/-- The lines of a drawing below its first one. -/
def treeLines? (text : String) : Option (List TreeLine) :=
  (text.toList.splitOn '\n').tail.dropLast.mapM treeLine?

theorem cutCells_edges (edges : List Edge) (label : List Char) :
    cutCells (edges.flatMap (·.text.toList) ++ label) =
      (edges.map (·.text.toList) ++ (cutCells label).1, (cutCells label).2) := by
  induction edges with
  | nil => rfl
  | cons e edges ih =>
    have hcell : ∀ rest, cutCells (e.text.toList ++ rest) =
        (e.text.toList :: (cutCells rest).1, (cutCells rest).2) := by
      intro rest
      cases e <;> rfl
    rw [List.flatMap_cons, List.append_assoc, hcell, ih]
    rfl

theorem cutCells_label (s : Statement) : cutCells s.label.toList = ([], s.label.toList) := by
  cases s with
  | print => rfl
  | input => rfl
  | loop body =>
    rw [Statement.label_loop]
    rfl
  | counted o n =>
    rw [Statement.toList_label_counted]
    cases o <;> rfl

theorem edge?_text (e : Edge) : edge? e.text.toList = some e := by
  cases e <;> decide

theorem treeLine?_eq (edges : List Edge) (s : Statement) :
    treeLine? (edges.flatMap (·.text.toList) ++ s.label.toList) = some ⟨edges, s.label⟩ := by
  have hedges : (edges.map (·.text.toList)).mapM edge? = some edges := by
    induction edges with
    | nil => rfl
    | cons e edges ih => simp [edge?_text, ih]
  rw [treeLine?, cutCells_edges, cutCells_label, List.append_nil, hedges]
  simp

theorem mapM_treeLine? (ls : List TreeLine) (h : ∀ l ∈ ls, ∃ s : Statement, l.label = s.label) :
    ((String.join (ls.map TreeLine.text)).toList.splitOn '\n').dropLast.mapM treeLine? =
      some ls := by
  induction ls with
  | nil => rfl
  | cons l ls ih =>
    obtain ⟨⟨s, hs⟩, hrest⟩ := List.forall_mem_cons.1 h
    obtain ⟨edges, label⟩ := l
    obtain rfl : label = s.label := hs
    have htext : (String.join ((TreeLine.mk edges s.label :: ls).map TreeLine.text)).toList =
        (edges.flatMap (·.text.toList) ++ s.label.toList) ++
          '\n' :: (String.join (ls.map TreeLine.text)).toList := by
      simp [TreeLine.text, List.flatMap_map]
    rw [htext, List.splitOn_append_cons_self_of_not_mem (newline_not_mem_line edges s),
      List.dropLast_cons_of_ne_nil (List.splitOn_ne_nil _ _), List.mapM_cons, treeLine?_eq, ih hrest]
    rfl

end Drawing

/-! ## Neighbouring lines -/

/-- Two lines, one right below the other, fit together. -/
structure TreeLine.Joined (upper lower : TreeLine) : Prop where
  meets : ∀ (j : Nat) (c d : Edge), upper.edges[j]? = some c → lower.edges[j]? = some d →
    c.leadsDown = d.leadsUp
  /-- An edge that leads down has a cell to lead to. -/
  goesOn : ∀ (j : Nat) (c : Edge), upper.edges[j]? = some c → c.leadsDown = true →
    j < lower.edges.length
  /-- Only the first line of a body stands deeper than the line above it. -/
  deepens : upper.edges.length < lower.edges.length →
    upper.label = "Loop" ∧ ∃ before arm, lower.edges = before ++ [arm] ∧
      before.length = upper.edges.length ∧ arm.isArm = true

section Neighbours

variable {indent : List Edge} {upper lower : TreeLine}

/-- The edges that an indent is made of pass by: they lead down where they come from above. -/
def PassesBy (indent : List Edge) : Prop := ∀ e ∈ indent, e.leadsDown = e.leadsUp

theorem PassesBy.concat (h : PassesBy indent) {e : Edge} (he : e.leadsDown = e.leadsUp) :
    PassesBy (indent ++ [e]) :=
  List.forall_mem_append.2 ⟨h, List.forall_mem_singleton.2 he⟩

theorem PassesBy.meets (h : PassesBy indent) {more more' : List Edge} {j : Nat} {c d : Edge}
    (hj : j < indent.length) (hc : (indent ++ more)[j]? = some c)
    (hd : (indent ++ more')[j]? = some d) : c.leadsDown = d.leadsUp := by
  rw [List.getElem?_append_left hj] at hc hd
  cases hc.symm.trans hd
  exact h c (List.mem_of_getElem? hc)

/-- A line fits above the next statement behind it. -/
theorem joined_next (h : PassesBy indent) {e arm : Edge} {more : List Edge}
    (hupper : upper.edges = indent ++ e :: more) (he : e.leadsDown = true)
    (hmore : ∀ x ∈ more, x.leadsDown = false) (hlower : lower.edges = indent ++ [arm])
    (harm : arm.isArm = true) : upper.Joined lower := by
  have hlength : lower.edges.length = indent.length + 1 := by simp [hlower]
  refine ⟨?_, ?_, ?_⟩
  · intro j c d hc hd
    have hj : j < lower.edges.length := (List.getElem?_eq_some_iff.1 hd).1
    rcases Nat.lt_or_ge j indent.length with hin | hout
    · exact h.meets hin (hupper ▸ hc) (hlower ▸ hd)
    · -- The column of the block leads from the one line down to the other.
      obtain rfl : j = indent.length := by omega
      simp only [hupper, hlower, List.getElem?_append_right, Nat.le_refl, Nat.sub_self,
        List.getElem?_cons_zero, Option.some.injEq] at hc hd
      subst hc hd
      rw [he]
      cases arm <;> first | rfl | contradiction
  · intro j c hc hdown
    rw [hlength]
    -- What the upper line has behind that column leads nowhere down.
    by_contra hj
    rw [hupper, List.getElem?_append_right (by omega),
      List.getElem?_cons, if_neg (by omega)] at hc
    rw [hmore c (List.mem_of_getElem? hc)] at hdown
    contradiction
  · intro hdeeper
    have : upper.edges.length = indent.length + (more.length + 1) := by simp [hupper]
    omega

/-- The line of a loop fits above its body. -/
theorem joined_body (h : PassesBy indent) {own past arm : Edge}
    (hupper : upper.edges = indent ++ [own]) (hloop : upper.label = "Loop")
    (hpast : own.leadsDown = past.leadsUp) (hlower : lower.edges = indent ++ [past] ++ [arm])
    (harm : arm.isArm = true) : upper.Joined lower := by
  have hlength : upper.edges.length = indent.length + 1 := by simp [hupper]
  refine ⟨?_, ?_, ?_⟩
  · intro j c d hc hd
    have hj : j < upper.edges.length := (List.getElem?_eq_some_iff.1 hc).1
    rw [List.append_assoc] at hlower
    rcases Nat.lt_or_ge j indent.length with hin | hout
    · exact h.meets hin (hupper ▸ hc) (hlower ▸ hd)
    · obtain rfl : j = indent.length := by omega
      simp only [hupper, hlower, List.getElem?_append_right, Nat.le_refl, Nat.sub_self,
        List.singleton_append, List.getElem?_cons_zero, Option.some.injEq] at hc hd
      subst hc hd
      exact hpast
  · -- The lower line has all columns of the upper one, and one more.
    intro j c hc _
    have hj : j < upper.edges.length := (List.getElem?_eq_some_iff.1 hc).1
    simp only [hlower, List.length_append, List.length_singleton]
    omega
  · intro _
    exact ⟨hloop, indent ++ [past], arm, hlower, by simp [hlength], harm⟩

end Neighbours

/-! ## Whole drawings -/

/-- Lines drawn behind an indent. `below` says whether another statement of the block follows, so
that the last line has to lead down to it. -/
structure Drawn (indent : List Edge) (below : Bool) (ls : List TreeLine) : Prop where
  joined : ls.IsChain TreeLine.Joined
  first : ∀ l ∈ ls.head?, ∃ arm, l.edges = indent ++ [arm] ∧ arm.isArm = true
  last : ∀ l ∈ ls.getLast?, ∃ e more, l.edges = indent ++ e :: more ∧ e.leadsDown = below ∧
    ∀ x ∈ more, x.leadsDown = false

theorem Statement.treeLines_ne_nil (s : Statement) (indent : List Edge) (isLast : Bool) :
    s.treeLines indent isLast ≠ [] := by
  cases s <;> simp [Statement.treeLines]

theorem drawn_leaf (indent : List Edge) (isLast : Bool) (label : String) :
    Drawn indent (!isLast) [⟨indent ++ [if isLast then .corner else .branch], label⟩] := by
  refine ⟨List.isChain_singleton _, ?_, ?_⟩
  · rintro l ⟨⟩
    exact ⟨_, rfl, by cases isLast <;> rfl⟩
  · rintro l ⟨⟩
    exact ⟨_, [], rfl, by cases isLast <;> rfl, by simp⟩

theorem Drawn.loop {indent : List Edge} {isLast : Bool} {body : List TreeLine}
    (hindent : PassesBy indent)
    (h : Drawn (indent ++ [if isLast then .gap else .bar]) false body) :
    Drawn indent (!isLast)
      (⟨indent ++ [if isLast then .corner else .branch], "Loop"⟩ :: body) := by
  have hleaf := drawn_leaf indent isLast "Loop"
  refine ⟨List.isChain_cons.2 ⟨fun l hl => ?_, h.joined⟩, hleaf.first, ?_⟩
  · obtain ⟨arm, hedges, harm⟩ := h.first l hl
    exact joined_body hindent rfl rfl (by cases isLast <;> rfl) hedges harm
  · intro l hl
    cases body with
    | nil => exact hleaf.last l hl
    | cons l' ls =>
      obtain ⟨e, more, hedges, he, hmore⟩ := h.last l hl
      rw [List.append_assoc] at hedges
      exact ⟨_, e :: more, hedges, by cases isLast <;> rfl, List.forall_mem_cons.2 ⟨he, hmore⟩⟩

theorem Drawn.append {indent : List Edge} {below : Bool} {ls more : List TreeLine}
    (hindent : PassesBy indent) (h : Drawn indent true ls) (hmore : Drawn indent below more)
    (hls : ls ≠ []) (hne : more ≠ []) : Drawn indent below (ls ++ more) := by
  refine ⟨List.isChain_append.2 ⟨h.joined, hmore.joined, ?_⟩, ?_, ?_⟩
  · intro upper hupper lower hlower
    obtain ⟨e, deeper, hedges, he, hdeeper⟩ := h.last upper hupper
    obtain ⟨arm, hnext, harm⟩ := hmore.first lower hlower
    exact joined_next hindent hedges he hdeeper hnext harm
  · rw [List.head?_append_of_ne_nil _ hls]
    exact h.first
  · rw [List.getLast?_append_of_ne_nil _ hne]
    exact hmore.last

mutual

theorem Statement.drawn (s : Statement) {indent : List Edge} (h : PassesBy indent)
    (isLast : Bool) : Drawn indent (!isLast) (s.treeLines indent isLast) := by
  cases s with
  | loop body =>
    rw [Statement.treeLines]
    exact .loop h (Program.drawn body (h.concat (by cases isLast <;> rfl)))
  | print | input | counted =>
    rw [Statement.treeLines]
    · exact drawn_leaf indent isLast _
    · simp

theorem Program.drawn (p : Program) {indent : List Edge} (h : PassesBy indent) :
    Drawn indent false (Program.treeLines indent p) := by
  cases p with
  | nil => exact ⟨List.isChain_nil, by simp [Program.treeLines], by simp [Program.treeLines]⟩
  | cons s rest =>
    rw [Program.treeLines]
    cases rest with
    | nil =>
      rw [Program.treeLines, List.append_nil]
      exact Statement.drawn s h true
    | cons t rest =>
      refine (Statement.drawn s h false).append h (Program.drawn (t :: rest) h)
        (s.treeLines_ne_nil indent _) ?_
      rw [Program.treeLines]
      exact List.append_ne_nil_of_left_ne_nil (t.treeLines_ne_nil indent _) _

end

mutual

theorem Statement.label_of_mem_treeLines (s : Statement) {indent : List Edge} {isLast : Bool} :
    ∀ l ∈ s.treeLines indent isLast, ∃ t : Statement, l.label = t.label := by
  have hown : ∀ edges, ∃ t : Statement, (TreeLine.mk edges s.label).label = t.label :=
    fun _ => ⟨s, rfl⟩
  cases s with
  | loop body => exact List.forall_mem_cons.2 ⟨hown _, Program.label_of_mem_treeLines body⟩
  | print | input | counted => exact List.forall_mem_singleton.2 (hown _)

theorem Program.label_of_mem_treeLines (p : Program) {indent : List Edge} :
    ∀ l ∈ Program.treeLines indent p, ∃ t : Statement, l.label = t.label := by
  cases p with
  | nil => simp [Program.treeLines]
  | cons s rest =>
    rw [Program.treeLines]
    exact List.forall_mem_append.2
      ⟨Statement.label_of_mem_treeLines s, Program.label_of_mem_treeLines rest⟩

end

theorem Program.tree_eq (p : Program) :
    p.tree = "CompilationUnit\n" ++ String.join ((Program.treeLines [] p).map TreeLine.text) := by
  delta Program.tree
  rfl

theorem Drawing.treeLines?_tree (p : Program) :
    treeLines? p.tree = some (Program.treeLines [] p) := by
  have hroot : "CompilationUnit\n".toList = "CompilationUnit".toList ++ ['\n'] := by decide
  have hline : '\n' ∉ "CompilationUnit".toList := by decide
  rw [treeLines?, Program.tree_eq, String.toList_append, hroot, List.append_assoc,
    List.singleton_append, List.splitOn_append_cons_self_of_not_mem hline, List.tail_cons]
  exact mapM_treeLine? _ p.label_of_mem_treeLines

/-- The lines of a drawing fit together. -/
theorem edges_are_unbroken (p : Program) :
    ∃ lines, Drawing.treeLines? p.tree = some lines ∧
      p.tree = "CompilationUnit\n" ++ String.join (lines.map TreeLine.text) ∧
      lines.IsChain TreeLine.Joined ∧
      ∀ l ∈ lines.getLast?, ∀ e ∈ l.edges, e.leadsDown = false := by
  have hdrawn : Drawn [] false (Program.treeLines [] p) := p.drawn (by simp [PassesBy])
  refine ⟨_, Drawing.treeLines?_tree p, p.tree_eq, hdrawn.joined, fun l hl => ?_⟩
  obtain ⟨e, more, hedges, he, hmore⟩ := hdrawn.last l hl
  rw [hedges, List.nil_append]
  exact List.forall_mem_cons.2 ⟨he, hmore⟩

example : Drawing.treeLines? (Program.tree [.loop [.print], .input]) =
    some [⟨[.branch], "Loop"⟩, ⟨[.bar, .corner], "Print"⟩, ⟨[.corner], "Input"⟩] := by
  decide +kernel

end Brainfuck
