import ReversePolish.Proofs.Postfix

set_option autoImplicit false

/-! # Counts of an expression

The tokens of an expression spell its listing, so the operators among them are those of the tree,
and the other tokens are its leaves, both in the order of the listing. A binary tree has one leaf
more than operators, and so it is with the tokens of every text that is accepted. The height of a
tree of any kind is at most one more than its operators, and each level can double the leaves. -/

namespace ReversePolish

attribute [local instance] corePow

/-! ## Kinds of tokens -/

/-- The tokens that are operators of the domain. -/
def operatorTokens (d : Domain) (ts : List String) : List String :=
  ts.filter (· ∈ Operator.symbolsOf d)

/-- The tokens that are no operators of the domain. -/
def operandTokens (d : Domain) (ts : List String) : List String :=
  ts.filter (· ∉ Operator.symbolsOf d)

section Labels

variable {ω α : Type} (op : ω) (a : α) (xs : List (ω ⊕ α))

@[simp] theorem filterMap_getLeft?_inl :
    (.inl op :: xs).filterMap Sum.getLeft? = op :: xs.filterMap Sum.getLeft? := rfl

@[simp] theorem filterMap_getLeft?_inr :
    (.inr a :: xs).filterMap Sum.getLeft? = xs.filterMap Sum.getLeft? := rfl

@[simp] theorem filterMap_getRight?_inl :
    (.inl op :: xs).filterMap Sum.getRight? = xs.filterMap Sum.getRight? := rfl

@[simp] theorem filterMap_getRight?_inr :
    (.inr a :: xs).filterMap Sum.getRight? = a :: xs.filterMap Sum.getRight? := rfl

end Labels

section Spelling

variable {d : Domain} {ts : List String} {xs : List (Operator ⊕ Literal)}

theorem operatorTokens_of_spells (h : List.Forall₂ (Denotes d) ts xs) :
    operatorTokens d ts = (xs.filterMap Sum.getLeft?).map Operator.symbol := by
  induction h with
  | nil => rfl
  | @cons t x ts xs ht _ ih =>
    unfold operatorTokens at ih ⊢
    cases x with
    | inl op =>
      have hop := ht.mem_symbolsOf
      rw [List.filter_cons_of_pos (by simpa using hop), ih, filterMap_getLeft?_inl, List.map_cons,
        ht.symbol_eq]
    | inr l =>
      have hop := ht.not_mem_symbolsOf
      rw [List.filter_cons_of_neg (by simpa using hop), ih, filterMap_getLeft?_inr]

/-- The tokens that are no operators stand for the literals, in the same order. -/
theorem operandTokens_of_spells (h : List.Forall₂ (Denotes d) ts xs) :
    List.Forall₂ (fun t l => Denotes d t (.inr l)) (operandTokens d ts)
      (xs.filterMap Sum.getRight?) := by
  induction h with
  | nil => exact .nil
  | @cons t x ts xs ht _ ih =>
    unfold operandTokens at ih ⊢
    cases x with
    | inl op =>
      have hop := ht.mem_symbolsOf
      rw [List.filter_cons_of_neg (by simpa using hop), filterMap_getRight?_inl]
      exact ih
    | inr l =>
      have hop := ht.not_mem_symbolsOf
      rw [List.filter_cons_of_pos (by simpa using hop), filterMap_getRight?_inr]
      exact .cons ht ih

end Spelling

/-! ## Trees of any kind -/

namespace Tree

variable {ω α : Type}

theorem filterMap_getRight?_postorder (t : Tree ω α) :
    t.postorder.filterMap Sum.getRight? = t.leaves := by
  induction t with
  | leaf a => rfl
  | node op l r ihl ihr =>
    rw [postorder, List.filterMap_append, List.filterMap_append, ihl, ihr, leaves]
    exact List.append_nil _

theorem length_filterMap_getLeft?_postorder (t : Tree ω α) :
    (t.postorder.filterMap Sum.getLeft?).length = t.operatorCount := by
  induction t with
  | leaf a => rfl
  | node op l r ihl ihr =>
    rw [postorder, List.filterMap_append, List.filterMap_append, List.length_append,
      List.length_append, ihl, ihr, filterMap_getLeft?_inl, List.filterMap_nil,
      List.length_singleton, operatorCount]
    omega

theorem height_le_operatorCount_add_one (t : Tree ω α) : t.height ≤ t.operatorCount + 1 := by
  induction t with
  | leaf a => exact Nat.le_refl 1
  | node op l r ihl ihr =>
    rw [height, operatorCount]
    omega

/-- Each level below the first one doubles the leaves at most. -/
theorem leafCount_le_two_pow (t : Tree ω α) : t.leafCount ≤ 2 ^ (t.height - 1) := by
  induction t with
  | leaf a => exact Nat.le_refl 1
  | node op l r ihl ihr =>
    have hpos := l.height_pos
    have hl : 2 ^ (l.height - 1) ≤ 2 ^ (max l.height r.height - 1) :=
      Nat.pow_le_pow_right (by decide) (by omega)
    have hr : 2 ^ (r.height - 1) ≤ 2 ^ (max l.height r.height - 1) :=
      Nat.pow_le_pow_right (by decide) (by omega)
    have hlevel : 1 + max l.height r.height - 1 = max l.height r.height - 1 + 1 := by omega
    rw [leafCount, height, hlevel, Nat.pow_succ]
    omega

theorem stats?_eq_some_iff {limit : Nat} {t : Tree ω α} {s : Stats} :
    t.stats? limit = some s ↔
      t.height ≤ limit ∧ s = ⟨t.height, t.leafCount, t.operatorCount⟩ := by
  rw [stats?, Option.ite_none_right_eq_some, Option.some.injEq, eq_comm (a := s)]

end Tree

/-! ## Expressions -/

variable {d : Domain} {text : String} {e : Expression}

theorem spells_of_read (h : Expression.read d text = .ok e) :
    e.domain = d ∧ List.Forall₂ (Denotes d) (tokenize text) (Tree.postorder e.root) := by
  obtain ⟨r, hr, rfl⟩ := read_eq_ok_iff.1 h
  exact ⟨rfl, readTree_eq_ok_iff.1 hr⟩

theorem length_operatorTokens (h : Expression.read d text = .ok e) :
    (operatorTokens d (tokenize text)).length = e.root.operatorCount := by
  rw [operatorTokens_of_spells (spells_of_read h).2, List.length_map,
    Tree.length_filterMap_getLeft?_postorder]

theorem length_operandTokens (h : Expression.read d text = .ok e) :
    (operandTokens d (tokenize text)).length = e.root.leafCount := by
  rw [(operandTokens_of_spells (spells_of_read h).2).length_eq,
    Tree.filterMap_getRight?_postorder, Tree.length_leaves]

/-- A text that is accepted has one operand more than operators, and these are the counts that its
    expression reports. Whatever a tree is made of, its report bounds the height by the operators
    and the leaves by the height. -/
theorem expression_counts :
    (∀ d text e, Expression.read d text = .ok e →
      let k := (operatorTokens d (tokenize text)).length
      (operandTokens d (tokenize text)).length = k + 1 ∧
        e.root.operatorCount = k ∧ e.root.leafCount = k + 1 ∧
        e.stats? = if e.root.height ≤ maxDepth then some ⟨e.root.height, k + 1, k⟩ else none) ∧
      ∀ (ω α : Type) (t : Tree ω α),
        t.height ≤ t.operatorCount + 1 ∧ t.leafCount ≤ 2 ^ (t.height - 1) ∧
        ∀ limit s, t.stats? limit = some s →
          s.height ≤ s.operatorCount + 1 ∧ s.leafCount ≤ 2 ^ (s.height - 1) := by
  constructor
  · intro d text e hread k
    have hoperators : e.root.operatorCount = k := (length_operatorTokens hread).symm
    have hleaves : e.root.leafCount = k + 1 := by
      rw [Tree.leafCount_eq_operatorCount_add_one, hoperators]
    refine ⟨by rw [length_operandTokens hread, hleaves], hoperators, hleaves, ?_⟩
    rw [Expression.stats?, Tree.stats?, hoperators, hleaves]
  · intro ω α t
    have hheight := t.height_le_operatorCount_add_one
    have hleaves := t.leafCount_le_two_pow
    refine ⟨hheight, hleaves, fun limit s hs => ?_⟩
    obtain ⟨-, rfl⟩ := Tree.stats?_eq_some_iff.1 hs
    exact ⟨hheight, hleaves⟩

/-- A text that meets the first bound, with its right subtree the higher one. -/
theorem expression_counts_of_three :
    let text := " 1,2\t+3,4 5,6 I U"
    ∃ e s, Expression.read .interval text = .ok e ∧
      (operandTokens .interval (tokenize text)).length = 3 ∧ e.stats? = some s ∧
      s = ⟨3, 3, 2⟩ ∧ s.height ≤ s.operatorCount + 1 ∧ s.leafCount ≤ 2 ^ (s.height - 1) := by
  intro text
  have hread : Expression.read .interval text =
      .ok ⟨.interval,
        .node .union (.leaf (.interval ⟨1, 2, by decide, by decide, by decide⟩))
          (.node .inter (.leaf (.interval ⟨3, 4, by decide, by decide, by decide⟩))
            (.leaf (.interval ⟨5, 6, by decide, by decide, by decide⟩))),
        "1,2\t+3,4 5,6 I U"⟩ := by decide +kernel
  have hk : (operatorTokens .interval (tokenize text)).length = 2 := by decide +kernel
  obtain ⟨hoperands, -, -, hstats⟩ := expression_counts.1 _ _ _ hread
  rw [hk] at hoperands hstats
  rw [if_pos (by decide)] at hstats
  obtain ⟨-, -, hbounds⟩ := expression_counts.2 _ _ _
  exact ⟨_, _, hread, hoperands, hstats, rfl, hbounds _ _ hstats⟩

end ReversePolish
