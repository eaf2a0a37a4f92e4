import ReversePolish.Proofs.Counts
import ReversePolish.Proofs.DiagramLayout
import ReversePolish.Proofs.LinearForm
import ReversePolish.Proofs.Overflow

set_option autoImplicit false

/-! # The forms list the source

The source of an expression lists its tree in postorder. The words of the infix form, without the
brackets, list it in inorder, and those of the prefix form in preorder, as do the lines of the
diagram without their layout. The three orders differ in where the operators stand: all of them
have the leaves from left to right. So each form lists the operands of the source in their order,
in canonical form, and the operators of the source in some order. The brackets of a form on one
line enclose its nodes, so they are balanced, one pair for each operator. -/

namespace ReversePolish

/-! ## What a form lists -/

/-- The words between single spaces. -/
def spacedWords (s : String) : List String :=
  (s.toList.splitOn ' ').map String.ofList

/-- Whether a word is a bracket. -/
def isBracket (w : String) : Bool :=
  w == "(" || w == ")"

/-- The words of a form that are no brackets. -/
def formWords (s : String) : List String :=
  (spacedWords s).filter (!isBracket ·)

/-- Whether a character of a diagram leads to a label. -/
def isLayout (c : Char) : Bool :=
  c == ' ' || c == '|' || c == '_'

/-- What the lines of a diagram have behind their layout; a connector has nothing there. -/
def diagramWords (s : String) : List String :=
  let shown := (s.toList.splitOn '\n').map (·.dropWhile isLayout)
  (shown.filter (!·.isEmpty)).map String.ofList

/-- The canonical form of a token that stands for a literal. -/
def IsCanonical (d : Domain) (token w : String) : Prop :=
  ∃ l : Literal, Denotes d token (.inr l) ∧ w = l.text

/-- Words that list tokens: the operands in their order and in canonical form, and the operators in
    some order. -/
structure ListsTokens (d : Domain) (tokens ws : List String) : Prop where
  operands : List.Forall₂ (IsCanonical d) (operandTokens d tokens) (operandTokens d ws)
  operators : (operatorTokens d ws).Perm (operatorTokens d tokens)

/-- The order of the nodes in a form. -/
def Fixity.listing {ω α : Type} : Fixity → Tree ω α → List (ω ⊕ α)
  | between => Tree.inorder
  | inFront => Tree.preorder

/-! ## Orders of a tree -/

section Orders

variable {ω α : Type}

theorem Fixity.filterMap_getRight?_listing (x : Fixity) (t : Tree ω α) :
    (x.listing t).filterMap Sum.getRight? = t.leaves := by
  induction t with
  | leaf a => cases x <;> rfl
  | node op l r ihl ihr =>
    rw [Tree.leaves, ← ihl, ← ihr]
    cases x with
    | between => rw [listing, Tree.inorder, List.filterMap_append, filterMap_getRight?_inl]
    | inFront =>
      rw [listing, Tree.preorder, List.cons_append, filterMap_getRight?_inl, List.filterMap_append]

theorem Fixity.listing_perm_postorder (x : Fixity) (t : Tree ω α) :
    (x.listing t).Perm t.postorder := by
  induction t with
  | leaf a => cases x <;> exact .refl _
  | node op l r ihl ihr =>
    have hboth := ihl.append ihr
    have hlast : (Sum.inl op :: (l.postorder ++ r.postorder)).Perm (Tree.node op l r).postorder :=
      (List.perm_append_singleton _ _).symm
    cases x with
    | between => exact (List.perm_middle.trans (hboth.cons _)).trans hlast
    | inFront => exact (hboth.cons _).trans hlast

end Orders

/-! ## Tokens of a listing -/

section Tokens

variable {d : Domain} {xs : List (Operator ⊕ Literal)}

theorem operandTokens_map_labelText (h : ∀ x ∈ xs, labelDomain x = d) :
    operandTokens d (xs.map labelText) = (xs.filterMap Sum.getRight?).map Literal.text := by
  unfold operandTokens
  induction xs with
  | nil => rfl
  | cons x xs ih =>
    obtain ⟨hx, hxs⟩ := List.forall_mem_cons.1 h
    have hden := denotes_labelText x
    rw [hx] at hden
    cases x with
    | inl op =>
      have hop := hden.mem_symbolsOf
      rw [List.map_cons, List.filter_cons_of_neg (by simpa using hop), ih hxs,
        filterMap_getRight?_inl]
    | inr l =>
      have hop := hden.not_mem_symbolsOf
      rw [List.map_cons, List.filter_cons_of_pos (by simpa using hop), ih hxs,
        filterMap_getRight?_inr]
      rfl

/-- The texts of the labels in any of the orders list the tokens that spell the tree. -/
theorem listsTokens_map_labelText {e : Expr} {ts : List String}
    (h : List.Forall₂ (Denotes d) ts (Tree.postorder e)) (x : Fixity) :
    ListsTokens d ts ((x.listing e).map labelText) := by
  have hperm := x.listing_perm_postorder e
  have hdomain : ∀ y ∈ x.listing e, labelDomain y = d := fun y hy =>
    Expr.isOver_of_denotes h y (hperm.mem_iff.1 hy)
  constructor
  · have hoperands := operandTokens_of_spells h
    rw [Tree.filterMap_getRight?_postorder] at hoperands
    rw [operandTokens_map_labelText hdomain, x.filterMap_getRight?_listing,
      List.forall₂_map_right_iff]
    exact hoperands.imp fun t l ht => ⟨l, ht, rfl⟩
  · rw [operatorTokens_of_spells h, operatorTokens_of_spells (spells_map_labelText hdomain)]
    exact (hperm.filterMap _).map _

end Tokens

/-! ## Words of a linear form -/

theorem not_isBracket_labelText (x : Operator ⊕ Literal) : isBracket (labelText x) = false := by
  cases x with
  | inl op => cases op <;> decide
  | inr l =>
    have hopen : l.text ≠ "(" := l.text_ne_bracket
    have hclose : l.text ≠ ")" := l.text_ne_singleton (c := ')') (by decide)
    exact Bool.or_eq_false_iff.2 ⟨beq_eq_false_iff_ne.2 hopen, beq_eq_false_iff_ne.2 hclose⟩

namespace Expr

theorem spacedWords_form (x : Fixity) (e : Expr) :
    spacedWords (x.form (labels e)) = (labels e).words x := by
  have hsep : " ".toList = [' '] := rfl
  rw [spacedWords, Tree.form_eq_intercalate, String.toList_intercalate, hsep,
    List.splitOn_intercalate ' ', List.map_map]
  · simp [Function.comp_def]
  · intro cs hcs hmem
    obtain ⟨w, hw, rfl⟩ := List.mem_map.1 hcs
    have hblank := (toList_of_tokenize_eq (tokenize_of_mem_words hw)).2 _ hmem
    cases hblank
  · rw [Ne, List.map_eq_nil_iff]
    exact Tree.words_ne_nil x _

theorem filter_words (x : Fixity) (e : Expr) :
    ((labels e).words x).filter (!isBracket ·) = (x.listing e).map labelText := by
  induction e with
  | leaf l =>
    have hl : isBracket l.text = false := not_isBracket_labelText (.inr l)
    rw [labels_leaf, Tree.words]
    cases x <;> exact List.filter_cons_of_pos (by simpa using hl)
  | node op l r ihl ihr =>
    have hop : isBracket op.symbol = false := not_isBracket_labelText (.inl op)
    have hopen : isBracket "(" = true := by decide
    have hclose : isBracket ")" = true := by decide
    have hkeep : ∀ ws : List String, (op.symbol :: ws).filter (!isBracket ·) =
        op.symbol :: ws.filter (!isBracket ·) := fun ws =>
      List.filter_cons_of_pos (by simpa using hop)
    rw [labels_node, Tree.words, List.filter_cons_of_neg (by simp [hopen]), List.filter_append,
      List.filter_cons_of_neg (by simp [hclose]), List.filter_nil, List.append_nil]
    cases x with
    | between =>
      rw [Fixity.arrange, List.filter_append, hkeep, ihl, ihr, Fixity.listing, Tree.inorder,
        List.map_append]
      rfl
    | inFront =>
      rw [Fixity.arrange, hkeep, List.filter_append, ihl, ihr, Fixity.listing, Tree.preorder,
        List.map_append]
      rfl

theorem formWords_form (x : Fixity) (e : Expr) :
    formWords (x.form (labels e)) = (x.listing e).map labelText := by
  rw [formWords, spacedWords_form, filter_words]

end Expr

/-! ## Words of a diagram -/

theorem not_isLayout_of_isLiteralChar {c : Char} (h : isLiteralChar c = true) :
    isLayout c = false := by
  cases hc : isLayout c with
  | false => rfl
  | true =>
    simp only [isLayout, Bool.or_eq_true, beq_iff_eq] at hc
    rcases hc with (rfl | rfl) | rfl <;> exact absurd h (by decide)

/-- A label begins where the layout ends. -/
theorem exists_labelText_eq_cons (x : Operator ⊕ Literal) :
    ∃ c cs, (labelText x).toList = c :: cs ∧ isLayout c = false := by
  cases x with
  | inl op => exact ⟨op.char, [], by cases op <;> rfl, by cases op <;> decide⟩
  | inr l =>
    obtain ⟨c, cs, hcs⟩ := List.exists_cons_of_ne_nil
      (toList_ne_nil_of_readLiteral (l.readLiteral_text 0))
    have hmem : c ∈ l.text.toList := by
      rw [hcs]
      exact List.mem_cons_self
    exact ⟨c, cs, hcs, not_isLayout_of_isLiteralChar (Literal.isLiteralChar_of_mem_text hmem)⟩

theorem isLayout_of_mem_margins {place : List Side} {c : Char} (h : c ∈ (margins place).toList) :
    isLayout c = true := by
  induction place with
  | nil => cases h
  | cons side place ih =>
    rw [Mark.margins_cons, String.toList_append, List.mem_append] at h
    rcases h with h | h
    · have hmargin : side.margin.toList.all isLayout = true := by
        cases side <;> rfl
      exact List.all_eq_true.1 hmargin c h
    · exact ih h

/-- A line of a node shows its label, and a connector shows nothing. -/
theorem Mark.dropWhile_line (m : Mark (Operator ⊕ Literal)) :
    (m.line labelText).toList.dropWhile isLayout =
      match m.node? with
      | some (_, x) => (labelText x).toList
      | none => [] := by
  have hlabel : ∀ x, (labelText x).toList.dropWhile isLayout = (labelText x).toList := by
    intro x
    obtain ⟨c, cs, hcs, hc⟩ := exists_labelText_eq_cons x
    rw [hcs, List.dropWhile_cons_of_neg (by simp [hc])]
  cases m with
  | node place x =>
    cases place with
    | nil => exact hlabel x
    | cons side place =>
      have hbranch : "|___".toList.all isLayout = true := rfl
      rw [line_node_cons, String.toList_append, String.toList_append,
        List.dropWhile_append_of_pos, hlabel]
      · rfl
      · intro c hc
        rcases List.mem_append.1 hc with hc | hc
        · exact isLayout_of_mem_margins hc
        · exact List.all_eq_true.1 hbranch c hc
  | bar place =>
    have hbar : "|".toList.all isLayout = true := rfl
    rw [line, String.toList_append]
    refine List.dropWhile_eq_nil_iff.2 fun c hc => ?_
    rcases List.mem_append.1 hc with hc | hc
    · exact isLayout_of_mem_margins hc
    · exact List.all_eq_true.1 hbar c hc

theorem filter_map_dropWhile_line (ms : List (Mark (Operator ⊕ Literal))) :
    ((ms.map fun m => (m.line labelText).toList.dropWhile isLayout).filter (!·.isEmpty)).map
        String.ofList = (ms.filterMap Mark.node?).map fun p => labelText p.2 := by
  induction ms with
  | nil => rfl
  | cons m ms ih =>
    rw [List.map_cons, Mark.dropWhile_line]
    cases m with
    | node place x =>
      obtain ⟨c, cs, hcs, -⟩ := exists_labelText_eq_cons x
      have hnode : (Mark.node place x).node? = some (place, x) := rfl
      rw [List.filterMap_cons_some hnode, List.filter_cons_of_pos (by simp [Mark.node?, hcs]),
        List.map_cons, List.map_cons, ih]
      exact congrArg (· :: _) String.ofList_toList
    | bar place =>
      rw [List.filterMap_cons_none rfl, List.filter_cons_of_neg (by simp [Mark.node?]), ih]

theorem Expr.diagramWords_diagram (e : Expr) :
    diagramWords (labels e).diagram = (Tree.preorder e).map labelText := by
  rw [diagramWords, (laidOut_diagram e).lines_eq, List.map_map, ← Tree.map_snd_placed,
    ← Tree.filterMap_node?_marks, List.map_map]
  exact filter_map_dropWhile_line _

/-! ## Brackets -/

/-- As many brackets are opened as closed, and none is closed before it is opened. -/
structure Balanced (n : Nat) (cs : List Char) : Prop where
  count_le : ∀ front, front <+: cs → front.count ')' ≤ front.count '('
  count_open : cs.count '(' = n
  count_close : cs.count ')' = n

namespace Balanced

variable {m n : Nat} {cs ds : List Char}

theorem of_not_mem (hopen : '(' ∉ cs) (hclose : ')' ∉ cs) : Balanced 0 cs := by
  refine ⟨fun front hfront => ?_, List.count_eq_zero.2 hopen, List.count_eq_zero.2 hclose⟩
  have hnone : front.count ')' = 0 :=
    List.count_eq_zero.2 fun hmem => hclose (hfront.subset hmem)
  rw [hnone]
  exact Nat.zero_le _

theorem of_eq (h : Balanced m cs) (hmn : m = n) : Balanced n cs :=
  hmn ▸ h

theorem append (hc : Balanced m cs) (hd : Balanced n ds) : Balanced (m + n) (cs ++ ds) := by
  refine ⟨fun front hfront => ?_, ?_, ?_⟩
  · rcases List.prefix_or_prefix_of_prefix hfront (List.prefix_append cs ds) with h | ⟨rest, rfl⟩
    · exact hc.count_le front h
    · have hrest := hd.count_le rest ((List.prefix_append_right_inj cs).1 hfront)
      rw [List.count_append, List.count_append, hc.count_open, hc.count_close]
      omega
  · rw [List.count_append, hc.count_open, hd.count_open]
  · rw [List.count_append, hc.count_close, hd.count_close]

theorem space (h : Balanced n cs) : Balanced n (' ' :: cs) := by
  have hspace : Balanced 0 [' '] := .of_not_mem (by decide) (by decide)
  exact (hspace.append h).of_eq (Nat.zero_add n)

theorem enclose (h : Balanced n cs) : Balanced (n + 1) ('(' :: (cs ++ [')'])) := by
  refine ⟨fun front hfront => ?_, ?_, ?_⟩
  · rcases List.prefix_cons_iff.1 hfront with rfl | ⟨rest, rfl, hrest⟩
    · exact Nat.le_refl 0
    · rw [List.count_cons_self, List.count_cons_of_ne (by decide)]
      -- the bracket in front makes up for the one at the end
      rcases List.prefix_concat_iff.1 hrest with rfl | hrest
      · rw [List.count_append, List.count_append, h.count_open, h.count_close]
        exact Nat.le_refl _
      · exact Nat.le_succ_of_le (h.count_le rest hrest)
  · rw [List.count_cons_self, List.count_append, h.count_open]
    rfl
  · rw [List.count_cons_of_ne (by decide), List.count_append, h.count_close]
    rfl

end Balanced

theorem balanced_labelText (x : Operator ⊕ Literal) : Balanced 0 (labelText x).toList := by
  cases x with
  | inl op => cases op <;> exact .of_not_mem (by decide) (by decide)
  | inr l =>
    refine .of_not_mem (fun hmem => ?_) (fun hmem => ?_)
    · exact absurd (Literal.isLiteralChar_of_mem_text hmem) (by decide)
    · exact absurd (Literal.isLiteralChar_of_mem_text hmem) (by decide)

theorem Expr.balanced_form (x : Fixity) (e : Expr) :
    Balanced e.operatorCount (x.form (labels e)).toList := by
  induction e with
  | leaf l =>
    have hl := balanced_labelText (.inr l)
    cases x <;> exact hl
  | node op l r ihl ihr =>
    have hop := (balanced_labelText (.inl op)).space
    have hlast : Balanced 0 [' '] := .of_not_mem (by decide) (by decide)
    rw [labels_node, Tree.operatorCount]
    cases x with
    | between =>
      have hform : (Fixity.between.form (.node op.symbol (labels l) (labels r))).toList =
          '(' :: ((' ' :: (Fixity.between.form (labels l)).toList ++ (' ' :: op.symbol.toList ++
            (' ' :: (Fixity.between.form (labels r)).toList ++ [' ']))) ++ [')']) := by
        simp [Fixity.form, Tree.infixForm]
      rw [hform]
      exact (ihl.space.append (hop.append (ihr.space.append hlast))).enclose.of_eq (by omega)
    | inFront =>
      have hform : (Fixity.inFront.form (.node op.symbol (labels l) (labels r))).toList =
          '(' :: ((' ' :: op.symbol.toList ++ (' ' :: (Fixity.inFront.form (labels l)).toList ++
            (' ' :: (Fixity.inFront.form (labels r)).toList ++ [' ']))) ++ [')']) := by
        simp [Fixity.form, Tree.prefixForm]
      rw [hform]
      exact (hop.append (ihl.space.append (ihr.space.append hlast))).enclose.of_eq (by omega)

/-! ## Renderings -/

/-- A rendering of a tree lists the tokens of a text: the words of each form are the tree in the
    order of the form, and the brackets of the forms on one line are balanced. -/
structure Rendering.ListsText (r : Rendering) (d : Domain) (text : String) (e : Expr) : Prop where
  infix_words : formWords r.infixForm = (Tree.inorder e).map labelText
  prefix_words : formWords r.prefixForm = (Tree.preorder e).map labelText
  diagram_words : diagramWords r.diagram = formWords r.prefixForm
  infix_lists : ListsTokens d (tokenize text) (formWords r.infixForm)
  prefix_lists : ListsTokens d (tokenize text) (formWords r.prefixForm)
  diagram_lists : ListsTokens d (tokenize text) (diagramWords r.diagram)
  infix_balanced : Balanced e.operatorCount r.infixForm.toList
  prefix_balanced : Balanced e.operatorCount r.prefixForm.toList

theorem Expr.rendering_listsText {d : Domain} {text : String} {e : Expr}
    (h : List.Forall₂ (Denotes d) (tokenize text) (Tree.postorder e)) :
    (labels e).rendering.ListsText d text e := by
  have hbetween : formWords (labels e).infixForm = (Tree.inorder e).map labelText :=
    formWords_form .between e
  have hinFront : formWords (labels e).prefixForm = (Tree.preorder e).map labelText :=
    formWords_form .inFront e
  have hdiagram := diagramWords_diagram e
  have hinorder : ListsTokens d (tokenize text) ((Tree.inorder e).map labelText) :=
    listsTokens_map_labelText h .between
  have hpreorder : ListsTokens d (tokenize text) ((Tree.preorder e).map labelText) :=
    listsTokens_map_labelText h .inFront
  exact ⟨hbetween, hinFront, hdiagram.trans hinFront.symm, hbetween ▸ hinorder,
    hinFront ▸ hpreorder, hdiagram ▸ hpreorder, balanced_form .between e, balanced_form .inFront e⟩

theorem Expression.render_eq_ok_iff {e : Expression} {r : Rendering} :
    e.render = .ok r ↔ e.root.height ≤ maxDepth ∧ (Expr.labels e.root).rendering = r := by
  by_cases h : e.root.height ≤ maxDepth
  · rw [render_of_le h, Except.ok.injEq, and_iff_right h]
  · rw [render_of_lt (Nat.lt_of_not_le h)]
    exact iff_of_false nofun fun hr => h hr.1

/-- One form alone is the one that is given with the others. -/
theorem Expression.part_eq_ok_iff (part : Rendering → String) {e : Expression} {s : String} :
    (do
      let t ← e.labels
      return part t.rendering) = .ok s ↔ ∃ r, e.render = .ok r ∧ part r = s := by
  simp only [render_eq_ok_iff, and_assoc, exists_and_left, exists_eq_left']
  exact labels_bind_eq_ok_iff

/-- The forms of every text that is accepted list its tokens, and a walk that can follow the tree
    gives these forms, one by one or all at once. -/
theorem renderings_list_text {d : Domain} {text : String} {e : Expression}
    (h : Expression.read d text = .ok e) :
    (Expr.labels e.root).rendering.ListsText d text e.root ∧
      (∀ r, e.render = .ok r ↔
        e.root.height ≤ maxDepth ∧ (Expr.labels e.root).rendering = r) ∧
      (∀ s, e.infixForm = .ok s ↔ ∃ r, e.render = .ok r ∧ r.infixForm = s) ∧
      (∀ s, e.prefixForm = .ok s ↔ ∃ r, e.render = .ok r ∧ r.prefixForm = s) ∧
      ∀ s, e.diagram = .ok s ↔ ∃ r, e.render = .ok r ∧ r.diagram = s := by
  exact ⟨Expr.rendering_listsText (spells_of_read h).2, fun _ => Expression.render_eq_ok_iff,
    fun _ => Expression.part_eq_ok_iff Rendering.infixForm,
    fun _ => Expression.part_eq_ok_iff Rendering.prefixForm,
    fun _ => Expression.part_eq_ok_iff Rendering.diagram⟩

/-- A text whose operands are not canonical and whose tree is not symmetric. -/
theorem renderings_list_text_of_quotient :
    let text := " +1. 2e0\t.5 - /"
    let infixWords := ["1.0", "/", "2.0", "-", "0.5"]
    let prefixWords := ["/", "1.0", "-", "2.0", "0.5"]
    ∃ e r, Expression.read .arithmetic text = .ok e ∧ e.render = .ok r ∧
      r.infixForm = "( 1.0 / ( 2.0 - 0.5 ) )" ∧ formWords r.infixForm = infixWords ∧
      formWords r.prefixForm = prefixWords ∧ diagramWords r.diagram = prefixWords ∧
      ListsTokens .arithmetic ["+1.", "2e0", ".5", "-", "/"] infixWords ∧
      ListsTokens .arithmetic ["+1.", "2e0", ".5", "-", "/"] prefixWords ∧
      Balanced 2 r.infixForm.toList := by
  intro text infixWords prefixWords
  have hread : Expression.read .arithmetic text =
      .ok ⟨.arithmetic,
        .node .div
          (.leaf (.number ⟨false, 2 ^ 52, 1022, by decide, by decide, .inr (Nat.le_refl _)⟩))
          (.node .sub
            (.leaf (.number ⟨false, 2 ^ 52, 1023, by decide, by decide, .inr (Nat.le_refl _)⟩))
            (.leaf (.number ⟨false, 2 ^ 52, 1021, by decide, by decide, .inr (Nat.le_refl _)⟩))),
        "+1. 2e0\t.5 - /"⟩ := by decide +kernel
  have htokens : tokenize text = ["+1.", "2e0", ".5", "-", "/"] := by decide +kernel
  obtain ⟨hlists, hrender, -⟩ := renderings_list_text hread
  have hbetween := hlists.infix_words.trans (c := infixWords) (by decide +kernel)
  have hinFront := hlists.prefix_words.trans (c := prefixWords) (by decide +kernel)
  have hdiagram := hlists.diagram_words.trans hinFront
  rw [← htokens]
  exact ⟨_, _, hread, (hrender _).2 ⟨by decide, rfl⟩, by decide +kernel, hbetween, hinFront,
    hdiagram, hbetween ▸ hlists.infix_lists, hinFront ▸ hlists.prefix_lists,
    hlists.infix_balanced⟩

end ReversePolish
