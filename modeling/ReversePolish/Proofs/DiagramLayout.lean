import ReversePolish.Proofs.Diagram
import ReversePolish.Proofs.Places
import ReversePolish.Proofs.RoundTrip
import ReversePolish.Proofs.TrimmedReading

set_option autoImplicit false

/-! # The layout of a diagram

Every line of a diagram is that of a node or a connector of an operator, and its text tells the
place: it starts with four characters for each step on the way down, and the last step to a node is
the branch instead. So a diagram is known from the list of its marks alone. The marks of a subtree
are those of the tree that it is in, one step further down, and this step puts four characters in
front of each of their lines; this is all that an indent does, whatever it is. -/

namespace ReversePolish

/-! ## Marks -/

/-- What a line of a diagram is for: the node at a place, or a connector of the operator there. -/
inductive Mark (β : Type) where
  | node (place : List Side) (x : β)
  | bar (place : List Side)
deriving DecidableEq, Repr

/-- What a step puts in front of the lines below. -/
def Side.margin : Side → String
  | left => "|   "
  | right => "    "

/-- What all the steps put in front. -/
def margins (place : List Side) : String :=
  String.join (place.map Side.margin)

namespace Mark

variable {β : Type}

/-- The text of the line. The last step to a node is a branch. -/
def line (text : β → String) : Mark β → String
  | node [] x => text x
  | node place x => margins place.dropLast ++ "|___" ++ text x
  | bar place => margins place ++ "|"

/-- The mark in a tree that has the subtree of the mark at a place. -/
def under (front : List Side) : Mark β → Mark β
  | node place x => node (front ++ place) x
  | bar place => bar (front ++ place)

/-- The node of the mark, with its place. -/
def node? : Mark β → Option (List Side × β)
  | node place x => some (place, x)
  | bar _ => none

/-- Whether the mark is a connector of the operator at the place. -/
def isBarAt (place : List Side) : Mark β → Bool
  | node _ _ => false
  | bar place' => place' == place

end Mark

namespace Tree

variable {ω α : Type}

/-- The marks of the lines of a diagram. Two connectors follow an operator, and one stands between
    its subtrees. -/
def marks : Tree ω α → List (Mark (ω ⊕ α))
  | leaf a => [.node [] (.inr a)]
  | node op l r =>
    .node [] (.inl op) :: .bar [] :: .bar [] ::
      (l.marks.map (Mark.under [.left]) ++ .bar [] :: r.marks.map (Mark.under [.right]))

/-- Whether the root is an operator. -/
def isOperator : Tree ω α → Bool
  | leaf _ => false
  | node _ _ _ => true

end Tree

/-! ## The lines of the marks -/

namespace Mark

variable {β : Type} {text : β → String} {side : Side}

theorem margins_cons (side : Side) (place : List Side) :
    margins (side :: place) = side.margin ++ margins place :=
  String.join_cons

theorem line_node_cons (side : Side) (place : List Side) (x : β) :
    (node (side :: place) x).line text =
      margins (side :: place).dropLast ++ "|___" ++ text x := rfl

theorem line_under_root (x : β) : ((node [] x).under [side]).line text = "|___" ++ text x := by
  have hnone : margins [] = "" := rfl
  rw [under, List.append_nil, line_node_cons, List.dropLast_singleton, hnone, String.empty_append]

/-- One more step above puts its characters in front of every line but that of the root. -/
theorem line_under {m : Mark β} (h : ∀ x, m ≠ node [] x) :
    (m.under [side]).line text = side.margin ++ m.line text := by
  cases m with
  | node place x =>
    cases place with
    | nil => exact absurd rfl (h x)
    | cons side' place =>
      rw [under, List.singleton_append, line_node_cons, line_node_cons, List.dropLast_cons_cons,
        margins_cons]
      simp only [String.append_assoc]
  | bar place =>
    rw [under, line, line, List.singleton_append, margins_cons, String.append_assoc]

end Mark

namespace Tree

variable {ω α : Type}

theorem ne_root_of_mem_map_under {side : Side} {ms : List (Mark (ω ⊕ α))} {m : Mark (ω ⊕ α)}
    (h : m ∈ ms.map (Mark.under [side])) (x : ω ⊕ α) : m ≠ .node [] x := by
  obtain ⟨m, -, rfl⟩ := List.mem_map.1 h
  cases m with
  | node place y => exact fun heq => List.cons_ne_nil _ _ (Mark.node.inj heq).1
  | bar place => exact nofun

/-- The first mark is the root, and no other. -/
theorem exists_marks_eq_cons (t : Tree ω α) :
    ∃ rest, t.marks = .node [] t.root :: rest ∧ ∀ m ∈ rest, ∀ x, m ≠ .node [] x := by
  cases t with
  | leaf a => exact ⟨[], rfl, List.forall_mem_nil _⟩
  | node op l r =>
    refine ⟨_, rfl, fun m hm x => ?_⟩
    simp only [List.mem_cons, List.mem_append] at hm
    rcases hm with rfl | rfl | hm | rfl | hm
    · exact nofun
    · exact nofun
    · exact ne_root_of_mem_map_under hm x
    · exact nofun
    · exact ne_root_of_mem_map_under hm x

theorem map_line_map_under (text : ω ⊕ α → String) (side : Side) (t : Tree ω α) :
    (t.marks.map (Mark.under [side])).map (Mark.line text) =
      hang "|___" side.margin (t.marks.map (Mark.line text)) := by
  obtain ⟨rest, hmarks, hrest⟩ := t.exists_marks_eq_cons
  rw [hmarks, List.map_cons, List.map_cons, List.map_cons, hang, Mark.line_under_root, List.map_map,
    List.map_map]
  refine congrArg _ (List.map_congr_left fun m hm => ?_)
  exact Mark.line_under (hrest m hm)

end Tree

theorem Expr.lines_labels (e : Expr) :
    (labels e).lines = (Tree.marks e).map (Mark.line labelText) := by
  induction e with
  | leaf l => rfl
  | node op l r ihl ihr =>
    rw [labels_node, Tree.lines, Tree.marks, ihl, ihr]
    simp only [List.map_cons, List.map_append, Tree.map_line_map_under]
    rfl

/-! ## The list of the marks -/

namespace Mark

variable {β : Type}

theorem under_under (p q : List Side) (m : Mark β) : (m.under q).under p = m.under (p ++ q) := by
  cases m <;> simp only [under, List.append_assoc]

theorem under_nil (m : Mark β) : m.under [] = m := by
  cases m <;> rfl

end Mark

namespace Tree

variable {ω α : Type}

/-- There are four lines for an operator and one for a leaf. -/
theorem length_marks (t : Tree ω α) : t.marks.length = t.leafCount + 4 * t.operatorCount := by
  induction t with
  | leaf a => rfl
  | node op l r ihl ihr =>
    simp only [marks, leafCount, operatorCount, List.length_cons, List.length_append,
      List.length_map, ihl, ihr]
    omega

theorem filterMap_node?_map_under (side : Side) (ms : List (Mark (ω ⊕ α))) :
    (ms.map (Mark.under [side])).filterMap Mark.node? =
      (ms.filterMap Mark.node?).map (Prod.map (side :: ·) id) := by
  rw [List.filterMap_map, List.map_filterMap]
  refine List.filterMap_congr fun m _ => ?_
  cases m <;> rfl

/-- The nodes are marked in preorder. -/
theorem filterMap_node?_marks (t : Tree ω α) : t.marks.filterMap Mark.node? = t.placed := by
  induction t with
  | leaf a => rfl
  | node op l r ihl ihr =>
    have hbar : ∀ place, Mark.node? (.bar place : Mark (ω ⊕ α)) = none := fun _ => rfl
    have hnode : Mark.node? (.node [] (.inl op) : Mark (ω ⊕ α)) = some ([], .inl op) := rfl
    rw [marks, placed, List.filterMap_cons_some hnode, List.filterMap_cons_none (hbar _),
      List.filterMap_cons_none (hbar _), List.filterMap_append, List.filterMap_cons_none (hbar _),
      filterMap_node?_map_under, filterMap_node?_map_under, ihl, ihr]

theorem countP_isBarAt_map_under_nil (side : Side) (ms : List (Mark (ω ⊕ α))) :
    (ms.map (Mark.under [side])).countP (Mark.isBarAt []) = 0 := by
  rw [List.countP_map, List.countP_eq_zero]
  intro m _
  cases m <;> exact Bool.false_ne_true

theorem countP_isBarAt_map_under_cons (side side' : Side) (place : List Side)
    (ms : List (Mark (ω ⊕ α))) :
    (ms.map (Mark.under [side])).countP (Mark.isBarAt (side' :: place)) =
      if side = side' then ms.countP (Mark.isBarAt place) else 0 := by
  rw [List.countP_map]
  split
  · next hside =>
    refine List.countP_congr fun m _ => ?_
    cases m with
    | node => rfl
    | bar => simp [Mark.under, Mark.isBarAt, hside]
  · next hside =>
    rw [List.countP_eq_zero]
    intro m _
    cases m with
    | node => exact Bool.false_ne_true
    | bar => simp [Mark.under, Mark.isBarAt, hside]

/-- An operator has three connectors, and nothing else has any. -/
theorem countP_isBarAt_marks (t : Tree ω α) (place : List Side) :
    t.marks.countP (Mark.isBarAt place) =
      if (t.subtree? place).any isOperator then 3 else 0 := by
  induction t generalizing place with
  | leaf a =>
    cases place with
    | nil => rfl
    | cons side place =>
      rw [subtree?_leaf]
      rfl
  | node op l r ihl ihr =>
    rw [marks, List.countP_cons, List.countP_cons, List.countP_cons, List.countP_append,
      List.countP_cons]
    cases place with
    | nil =>
      rw [countP_isBarAt_map_under_nil, countP_isBarAt_map_under_nil]
      rfl
    | cons side place =>
      rw [countP_isBarAt_map_under_cons, countP_isBarAt_map_under_cons, ihl, ihr]
      cases side with
      | left =>
        rw [subtree?_left]
        simp [Mark.isBarAt]
      | right =>
        rw [subtree?_right]
        simp [Mark.isBarAt]

/-- The marks of a subtree stand together in those of the tree. -/
theorem exists_marks_eq_append {t u : Tree ω α} {place : List Side}
    (h : t.subtree? place = some u) :
    ∃ before after, t.marks = before ++ u.marks.map (Mark.under place) ++ after := by
  induction place generalizing t with
  | nil =>
    rw [subtree?_nil] at h
    cases h
    have hsame : u.marks.map (Mark.under []) = u.marks := List.map_id'' Mark.under_nil _
    exact ⟨[], [], by rw [hsame, List.nil_append, List.append_nil]⟩
  | cons side place ih =>
    have hunder : ∀ before after : List (Mark (ω ⊕ α)),
        (before ++ u.marks.map (Mark.under place) ++ after).map (Mark.under [side]) =
          before.map (Mark.under [side]) ++ u.marks.map (Mark.under (side :: place)) ++
            after.map (Mark.under [side]) := by
      intro before after
      simp only [List.map_append, List.map_map, Function.comp_def, Mark.under_under,
        List.singleton_append]
    cases t with
    | leaf a =>
      rw [subtree?_leaf] at h
      cases h
    | node op l r =>
      cases side with
      | left =>
        obtain ⟨before, after, hl⟩ := ih h
        refine ⟨.node [] (.inl op) :: .bar [] :: .bar [] :: before.map (Mark.under [.left]),
          after.map (Mark.under [.left]) ++ .bar [] :: r.marks.map (Mark.under [.right]), ?_⟩
        rw [marks, hl, hunder]
        simp only [List.cons_append, List.append_assoc]
      | right =>
        obtain ⟨before, after, hr⟩ := ih h
        refine ⟨.node [] (.inl op) :: .bar [] :: .bar [] ::
          (l.marks.map (Mark.under [.left]) ++ .bar [] :: before.map (Mark.under [.right])),
          after.map (Mark.under [.right]), ?_⟩
        rw [marks, hr, hunder]
        simp only [List.cons_append, List.append_assoc]

/-- The lines of an operator: its own, two connectors, the lines of the left subtree, a connector,
    and the lines of the right subtree. -/
theorem exists_marks_eq_block {t l r : Tree ω α} {op : ω} {place : List Side}
    (h : t.subtree? place = some (.node op l r)) :
    ∃ before after, t.marks =
      before ++
        .node place (.inl op) :: .bar place :: .bar place ::
          (l.marks.map (Mark.under (place ++ [.left])) ++
            .bar place :: r.marks.map (Mark.under (place ++ [.right]))) ++ after := by
  obtain ⟨before, after, ht⟩ := exists_marks_eq_append h
  refine ⟨before, after, ?_⟩
  have hnode : ∀ x, (Mark.node [] x : Mark (ω ⊕ α)).under place = .node place x := fun x => by
    rw [Mark.under, List.append_nil]
  have hbar : (Mark.bar [] : Mark (ω ⊕ α)).under place = .bar place := by
    rw [Mark.under, List.append_nil]
  rw [ht, marks]
  simp only [List.map_cons, List.map_append, List.map_map, Function.comp_def, Mark.under_under,
    hnode, hbar]

end Tree

/-! ## The ends of lines -/

/-- The text is not empty, and it does not end in white space. -/
def EndsVisibly (cs : List Char) : Prop :=
  ∃ c, cs.getLast? = some c ∧ isSpace c = false

theorem EndsVisibly.append_left {cs : List Char} (h : EndsVisibly cs) (front : List Char) :
    EndsVisibly (front ++ cs) := by
  obtain ⟨c, hlast, hc⟩ := h
  exact ⟨c, by rw [List.getLast?_append, hlast, Option.some_or], hc⟩

theorem EndsVisibly.getLast?_ne {cs : List Char} {c : Char} (h : EndsVisibly cs)
    (hc : isSpace c = true) : cs.getLast? ≠ some c := by
  obtain ⟨c', hlast, hc'⟩ := h
  intro hsame
  rw [hlast] at hsame
  rw [Option.some.inj hsame, hc] at hc'
  cases hc'

theorem endsVisibly_labelText (x : Operator ⊕ Literal) : EndsVisibly (labelText x).toList := by
  cases x with
  | inl op => exact ⟨op.char, by cases op <;> rfl, by cases op <;> decide⟩
  | inr l =>
    have hne : l.text.toList ≠ [] := toList_ne_nil_of_readLiteral (l.readLiteral_text 0)
    have hlast := List.getLast_mem hne
    exact ⟨_, List.getLast?_eq_some_getLast hne,
      isSpace_of_isLiteralChar (Literal.isLiteralChar_of_mem_text hlast)⟩

theorem Mark.endsVisibly_line (m : Mark (Operator ⊕ Literal)) :
    EndsVisibly (m.line labelText).toList := by
  cases m with
  | node place x =>
    have hx := endsVisibly_labelText x
    cases place with
    | nil => exact hx
    | cons side place =>
      rw [line_node_cons, String.toList_append]
      exact hx.append_left _
  | bar place =>
    rw [line, String.toList_append]
    exact EndsVisibly.append_left ⟨'|', rfl, by decide⟩ _

/-- Whatever the indent, a diagram ends with the text of a leaf. -/
theorem Expr.endsVisibly_diagramFrom (e : Expr) (indent : String) :
    EndsVisibly ((labels e).diagramFrom indent).toList := by
  induction e generalizing indent with
  | leaf l => exact endsVisibly_labelText (.inr l)
  | node op l r _ ihr =>
    rw [labels_node, Tree.diagramFrom, String.toList_append]
    exact (ihr _).append_left _

/-- The text with a line break at its end, which is put there unless the text ends with one. -/
def closeLine (s : String) : String :=
  if s.toList.getLast? = some '\n' then s else s ++ "\n"

/-- Behind a left subtree a line break is always due. -/
theorem Expr.closeLine_diagramFrom (e : Expr) (indent : String) :
    closeLine ((labels e).diagramFrom indent) = (labels e).diagramFrom indent ++ "\n" :=
  if_neg ((endsVisibly_diagramFrom e indent).getLast?_ne (by decide))

/-! ## Indents -/

/-- The text with the indent after every line break. -/
def insertIndent (indent s : String) : String :=
  String.ofList (s.toList.flatMap fun c => if c = '\n' then c :: indent.toList else [c])

theorem insertIndent_append (indent a b : String) :
    insertIndent indent (a ++ b) = insertIndent indent a ++ insertIndent indent b := by
  rw [insertIndent, insertIndent, insertIndent, String.toList_append, List.flatMap_append,
    String.ofList_append]

theorem insertIndent_of_not_mem (indent : String) {s : String} (h : '\n' ∉ s.toList) :
    insertIndent indent s = s := by
  have hkeep : ∀ c ∈ s.toList, (if c = '\n' then c :: indent.toList else [c]) = [c] := by
    intro c hc
    rw [if_neg]
    rintro rfl
    exact h hc
  rw [insertIndent, List.flatMap_congr hkeep, List.flatMap_singleton', String.ofList_toList]

theorem insertIndent_break (indent : String) : insertIndent indent "\n" = "\n" ++ indent := by
  refine String.toList_injective ?_
  rw [insertIndent, String.toList_ofList, String.toList_append]
  exact List.append_nil _

/-- One indent more in front of another is put after every line break. -/
theorem Expr.insertIndent_diagramFrom (indent : String) (e : Expr) {inner : String}
    (h : '\n' ∉ inner.toList) :
    insertIndent indent ((labels e).diagramFrom inner) =
      (labels e).diagramFrom (indent ++ inner) := by
  induction e generalizing inner with
  | leaf l =>
    refine insertIndent_of_not_mem indent fun hmem => ?_
    exact absurd (Literal.isLiteralChar_of_mem_text hmem) (by decide)
  | node op l r ihl ihr =>
    have hmargin : ∀ margin : String, '\n' ∉ margin.toList → '\n' ∉ (inner ++ margin).toList := by
      intro margin hbreak
      rw [String.toList_append, List.mem_append, not_or]
      exact ⟨h, hbreak⟩
    have hleft : insertIndent indent ((labels l).diagramFrom (inner ++ "|   ")) =
        (labels l).diagramFrom (indent ++ inner ++ "|   ") := by
      rw [ihl (hmargin "|   " (by decide)), String.append_assoc]
    have hright : insertIndent indent ((labels r).diagramFrom (inner ++ "    ")) =
        (labels r).diagramFrom (indent ++ inner ++ "    ") := by
      rw [ihr (hmargin "    " (by decide)), String.append_assoc]
    have hop : insertIndent indent op.symbol = op.symbol :=
      insertIndent_of_not_mem indent (by cases op <;> decide)
    have hinner : insertIndent indent inner = inner := insertIndent_of_not_mem indent h
    have hbar : insertIndent indent "|\n" = "|\n" ++ indent := by
      have hsplit : "|\n" = "|" ++ "\n" := rfl
      rw [hsplit, insertIndent_append, insertIndent_of_not_mem indent (by decide),
        insertIndent_break, String.append_assoc]
    have hbranch : insertIndent indent "|___" = "|___" := insertIndent_of_not_mem indent (by decide)
    rw [labels_node, Tree.diagramFrom, Tree.diagramFrom]
    simp only [insertIndent_append, insertIndent_break, hop, hinner, hbar, hbranch, hleft, hright,
      String.append_assoc]

/-! ## Diagrams -/

/-- The text is laid out as a diagram of the tree. -/
structure Expr.LaidOut (e : Expr) (diagram : String) : Prop where
  lines_eq : diagram.toList.splitOn '\n' =
    (Tree.marks e).map fun m => (m.line labelText).toList
  length_lines : (diagram.toList.splitOn '\n').length = e.leafCount + 4 * e.operatorCount
  endsVisibly : ∀ line ∈ diagram.toList.splitOn '\n', EndsVisibly line
  getLast?_ne : diagram.toList.getLast? ≠ some '\n'
  /-- The lines of nodes list the tree in preorder. -/
  nodes_eq : (Tree.marks e).filterMap Mark.node? = Tree.placed e
  map_snd_placed : (Tree.placed e).map Prod.snd = e.preorder
  /-- The places are those of the nodes, and no node has two lines. -/
  mem_placed_iff : ∀ place x,
    (place, x) ∈ Tree.placed e ↔ ∃ u, e.subtree? place = some u ∧ u.root = x
  nodup_places : ((Tree.placed e).map Prod.fst).Nodup
  countP_isBarAt : ∀ place, (Tree.marks e).countP (Mark.isBarAt place) =
    if (e.subtree? place).any Tree.isOperator then 3 else 0
  /-- Where the lines of an operator and of its subtrees stand. -/
  block : ∀ place op l r, e.subtree? place = some (.node op l r) →
    ∃ before after, Tree.marks e =
      before ++
        .node place (.inl op) :: .bar place :: .bar place ::
          (l.marks.map (Mark.under (place ++ [.left])) ++
            .bar place :: r.marks.map (Mark.under (place ++ [.right]))) ++ after

theorem Expr.laidOut_diagram (e : Expr) : LaidOut e (labels e).diagram := by
  have hlines : (labels e).diagram.toList.splitOn '\n' =
      (Tree.marks e).map fun m => (m.line labelText).toList := by
    rw [splitOn_diagram, lines_labels, List.map_map]
    rfl
  refine ⟨hlines, ?_, ?_, (endsVisibly_diagramFrom e "").getLast?_ne (by decide),
    Tree.filterMap_node?_marks e, Tree.map_snd_placed e, fun _ _ => Tree.mem_placed_iff,
    Tree.nodup_places e, Tree.countP_isBarAt_marks e, fun _ _ _ _ => Tree.exists_marks_eq_block⟩
  · rw [hlines, List.length_map, Tree.length_marks]
  · intro line hline
    rw [hlines] at hline
    obtain ⟨m, -, rfl⟩ := List.mem_map.1 hline
    exact m.endsVisibly_line

/-- The diagram of every tree is laid out line by line, an indent only goes behind the line breaks
    and leaves the last line open, and an expression has the diagram of its tree, where the walk can
    follow it. -/
theorem diagram_layout :
    (∀ e : Expr, Expr.LaidOut e (Expr.labels e).diagram) ∧
      (∀ (e : Expr) indent, (Expr.labels e).diagramFrom indent =
        insertIndent indent ((Expr.labels e).diagramFrom "")) ∧
      (∀ (e : Expr) indent, closeLine ((Expr.labels e).diagramFrom indent) =
        (Expr.labels e).diagramFrom indent ++ "\n") ∧
      ∀ (e : Expression) s,
        e.diagram = .ok s ↔ e.root.height ≤ maxDepth ∧ (Expr.labels e.root).diagram = s := by
  refine ⟨Expr.laidOut_diagram, fun e indent => ?_, Expr.closeLine_diagramFrom,
    fun e s => Expression.labels_bind_eq_ok_iff⟩
  rw [Expr.insertIndent_diagramFrom indent e (by decide), String.append_empty]

end ReversePolish
