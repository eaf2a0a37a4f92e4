import ReversePolish.Proofs.Rendered

set_option autoImplicit false

/-! # The diagram determines the tree

A diagram is its lines, joined by line breaks that no label has. The lines of a subtree hang in
those of the whole: the first one from a branch, the others from a margin. Below the left subtree
the margin is a vertical line with spaces behind it, and the line that separates the subtrees is
the vertical line alone; so the first line without the margin ends the left subtree, and what is
behind the margin are the lines of the subtree. -/

namespace ReversePolish

/-! ## Hanging lines -/

/-- Lines with one text in front of the first and another in front of each that follows. -/
def hang (first margin : String) : List String → List String
  | [] => []
  | line :: lines => (first ++ line) :: lines.map (margin ++ ·)

theorem hang_ne_nil {first margin : String} {lines : List String} (h : lines ≠ []) :
    hang first margin lines ≠ [] := by
  cases lines with
  | nil => exact absurd rfl h
  | cons line lines => exact List.cons_ne_nil _ _

theorem hang_empty (lines : List String) : hang "" "" lines = lines := by
  cases lines with
  | nil => rfl
  | cons line lines => simp only [hang, String.empty_append, List.map_id']

theorem map_hang (indent first margin : String) (lines : List String) :
    (hang first margin lines).map (indent ++ ·) =
      hang (indent ++ first) (indent ++ margin) lines := by
  cases lines with
  | nil => rfl
  | cons line lines =>
    rw [hang, hang, List.map_cons, List.map_map, String.append_assoc]
    simp only [Function.comp_def, String.append_assoc]

theorem intercalate_hang {sep first margin : String} {lines : List String} (h : lines ≠ []) :
    sep.intercalate (hang first margin lines) =
      first ++ sep.intercalate (hang "" margin lines) := by
  cases lines with
  | nil => exact absurd rfl h
  | cons line lines =>
    rw [hang, hang, String.intercalate_cons_append, String.empty_append]

theorem exists_of_mem_hang {first margin line : String} {lines : List String}
    (h : line ∈ hang first margin lines) :
    ∃ s ∈ lines, line = first ++ s ∨ line = margin ++ s := by
  cases lines with
  | nil => cases h
  | cons s lines =>
    rcases List.mem_cons.1 h with rfl | h
    · exact ⟨s, List.mem_cons_self, .inl rfl⟩
    · obtain ⟨s', hs', rfl⟩ := List.mem_map.1 h
      exact ⟨s', List.mem_cons_of_mem _ hs', .inr rfl⟩

theorem not_mem_of_mem_hang {c : Char} {first margin line : String} {lines : List String}
    (hfirst : c ∉ first.toList) (hmargin : c ∉ margin.toList)
    (hlines : ∀ s ∈ lines, c ∉ s.toList) (h : line ∈ hang first margin lines) :
    c ∉ line.toList := by
  obtain ⟨s, hs, rfl | rfl⟩ := exists_of_mem_hang h
  · rw [String.toList_append, List.mem_append, not_or]
    exact ⟨hfirst, hlines s hs⟩
  · rw [String.toList_append, List.mem_append, not_or]
    exact ⟨hmargin, hlines s hs⟩

/-- Lines behind a margin end at the first line without it. -/
theorem map_append_cons_inj {margin stop : String} (hstop : ∀ s, margin ++ s ≠ stop)
    {lines lines' rest rest' : List String}
    (h : lines.map (margin ++ ·) ++ stop :: rest = lines'.map (margin ++ ·) ++ stop :: rest') :
    lines = lines' ∧ rest = rest' := by
  induction lines generalizing lines' with
  | nil =>
    cases lines' with
    | nil => exact ⟨rfl, (List.cons.inj h).2⟩
    | cons s lines' => exact absurd (List.cons.inj h).1.symm (hstop s)
  | cons s lines ih =>
    cases lines' with
    | nil => exact absurd (List.cons.inj h).1 (hstop s)
    | cons s' lines' =>
      obtain ⟨hline, hlines⟩ := List.cons.inj h
      obtain ⟨rfl, hrest⟩ := ih hlines
      rw [(String.append_right_inj margin).1 hline]
      exact ⟨rfl, hrest⟩

theorem hang_append_cons_inj {first margin stop : String} (hstop : ∀ s, margin ++ s ≠ stop)
    {lines lines' rest rest' : List String} (hne : lines ≠ []) (hne' : lines' ≠ [])
    (h : hang first margin lines ++ stop :: rest = hang first margin lines' ++ stop :: rest') :
    lines = lines' ∧ rest = rest' := by
  obtain ⟨s, lines, rfl⟩ := List.exists_cons_of_ne_nil hne
  obtain ⟨s', lines', rfl⟩ := List.exists_cons_of_ne_nil hne'
  rw [hang, hang, List.cons_append, List.cons_append] at h
  obtain ⟨hline, hlines⟩ := List.cons.inj h
  obtain ⟨rfl, hrest⟩ := map_append_cons_inj hstop hlines
  rw [(String.append_right_inj first).1 hline]
  exact ⟨rfl, hrest⟩

theorem hang_injective (first margin : String) : Function.Injective (hang first margin) := by
  intro lines lines' h
  cases lines with
  | nil =>
    cases lines' with
    | nil => rfl
    | cons s' lines' => cases h
  | cons s lines =>
    cases lines' with
    | nil => cases h
    | cons s' lines' =>
      obtain ⟨hline, hlines⟩ := List.cons.inj h
      have hmargin : Function.Injective (margin ++ ·) :=
        fun _ _ => (String.append_right_inj margin).1
      rw [(String.append_right_inj first).1 hline, List.map_injective_iff.2 hmargin hlines]

/-! ## The lines of a diagram -/

namespace Tree

/-- The lines of a diagram. -/
def lines : Tree String String → List String
  | leaf a => [a]
  | node op l r =>
    op :: "|" :: "|" :: (hang "|___" "|   " l.lines ++ "|" :: hang "|___" "    " r.lines)

theorem lines_ne_nil (t : Tree String String) : t.lines ≠ [] := by
  cases t <;> exact List.cons_ne_nil _ _

theorem diagramFrom_eq_intercalate (indent : String) (t : Tree String String) :
    t.diagramFrom indent = "\n".intercalate (hang "" indent t.lines) := by
  induction t generalizing indent with
  | leaf a =>
    rw [diagramFrom, lines, hang, List.map_nil, String.intercalate_singleton, String.empty_append]
  | node op l r ihl ihr =>
    have hleft : "\n".intercalate (hang (indent ++ "|___") (indent ++ "|   ") l.lines) =
        indent ++ "|___" ++ l.diagramFrom (indent ++ "|   ") := by
      rw [intercalate_hang l.lines_ne_nil, ihl]
    have hright : "\n".intercalate (hang (indent ++ "|___") (indent ++ "    ") r.lines) =
        indent ++ "|___" ++ r.diagramFrom (indent ++ "    ") := by
      rw [intercalate_hang r.lines_ne_nil, ihr]
    have hbar : "|\n" = "|" ++ "\n" := rfl
    rw [diagramFrom, lines, hang]
    simp only [List.map_cons, List.map_append, map_hang]
    rw [String.intercalate_cons_of_ne_nil (by simp), String.intercalate_cons_of_ne_nil (by simp),
      String.intercalate_cons_of_ne_nil (by simp),
      String.intercalate_append_of_ne_nil (hang_ne_nil l.lines_ne_nil) (by simp),
      String.intercalate_cons_of_ne_nil (hang_ne_nil r.lines_ne_nil), hleft, hright, hbar]
    simp only [String.append_assoc, String.empty_append]

theorem diagram_eq_intercalate (t : Tree String String) :
    t.diagram = "\n".intercalate t.lines := by
  rw [diagram, diagramFrom_eq_intercalate, hang_empty]

/-- The line between the subtrees is not behind the margin of the left one. -/
theorem margin_append_ne_bar (s : String) : "|   " ++ s ≠ "|" := by
  intro h
  have hlength := congrArg String.length h
  rw [String.length_append] at hlength
  have hmargin : "|   ".length = 4 := rfl
  have hbar : "|".length = 1 := rfl
  omega

theorem lines_injective : Function.Injective lines := by
  intro t u h
  induction t generalizing u with
  | leaf a =>
    cases u with
    | leaf b => rw [(List.cons.inj h).1]
    | node op' l' r' => cases (List.cons.inj h).2
  | node op l r ihl ihr =>
    cases u with
    | leaf b => cases (List.cons.inj h).2
    | node op' l' r' =>
      rw [lines, lines] at h
      simp only [List.cons.injEq, true_and] at h
      obtain ⟨rfl, hsubtrees⟩ := h
      obtain ⟨hl, hr⟩ := hang_append_cons_inj margin_append_ne_bar
        l.lines_ne_nil l'.lines_ne_nil hsubtrees
      rw [ihl hl, ihr (hang_injective _ _ hr)]

end Tree

/-! ## Line breaks -/

namespace Expr

theorem newline_not_mem_of_mem_lines {e : Expr} {line : String}
    (h : line ∈ (labels e).lines) : '\n' ∉ line.toList := by
  induction e generalizing line with
  | leaf l =>
    rw [labels_leaf, Tree.lines, List.mem_singleton] at h
    subst h
    intro hmem
    exact absurd (Literal.isLiteralChar_of_mem_text hmem) (by decide)
  | node op l r ihl ihr =>
    rw [labels_node, Tree.lines] at h
    simp only [List.mem_cons, List.mem_append] at h
    rcases h with rfl | rfl | rfl | h | rfl | h
    · cases op <;> decide
    · decide
    · decide
    · exact not_mem_of_mem_hang (by decide) (by decide) (fun _ => ihl) h
    · decide
    · exact not_mem_of_mem_hang (by decide) (by decide) (fun _ => ihr) h

/-- The line breaks of a diagram are those that join its lines. -/
theorem splitOn_diagram (e : Expr) :
    (labels e).diagram.toList.splitOn '\n' = (labels e).lines.map String.toList := by
  have hsep : "\n".toList = ['\n'] := rfl
  rw [Tree.diagram_eq_intercalate, String.toList_intercalate, hsep]
  refine List.splitOn_intercalate '\n' ?_ ?_
  · intro cs hcs
    obtain ⟨line, hline, rfl⟩ := List.mem_map.1 hcs
    exact newline_not_mem_of_mem_lines hline
  · rw [Ne, List.map_eq_nil_iff]
    exact Tree.lines_ne_nil _

theorem diagram_injective {e f : Expr} (h : (labels e).diagram = (labels f).diagram) :
    e = f := by
  have hlines : (labels e).lines.map String.toList = (labels f).lines.map String.toList := by
    rw [← splitOn_diagram, ← splitOn_diagram, h]
  have htoList : Function.Injective String.toList := fun _ _ => String.toList_injective
  exact labels_injective (Tree.lines_injective (List.map_injective_iff.2 htoList hlines))

end Expr

/-- Two trees of any size share their diagram only if they are the same tree; so do two
    expressions, where the walk can follow them. -/
theorem diagram_determines_tree :
    (∀ r s : Expr, (Expr.labels r).diagram = (Expr.labels s).diagram ↔ r = s) ∧
      ∀ e f : Expression,
        (∃ s, e.diagram = .ok s ∧ f.diagram = .ok s) ↔
          e.root = f.root ∧ e.root.height ≤ maxDepth := by
  constructor
  · intro r s
    exact ⟨Expr.diagram_injective, fun h => h ▸ rfl⟩
  · intro e f
    exact Expression.exists_labels_bind_iff Expr.diagram_injective

end ReversePolish
