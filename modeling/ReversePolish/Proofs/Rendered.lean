import ReversePolish.Proofs.Depth
import ReversePolish.Proofs.LiteralText

set_option autoImplicit false

/-! # Rendering without a limit

The walk that renders a draft is limited in depth. Every label of a checked tree has a text, so
the limit is all that the walk can fail for: it gives the tree of texts of each tree that it can
follow, and of no other. The texts tell the labels, so they tell the trees; and a form that tells
trees apart tells expressions apart. -/

namespace ReversePolish

/-! ## Trees of texts -/

theorem Operator.symbol_injective : Function.Injective Operator.symbol := by
  intro op op' h
  have hop := Operator.ofSymbol?_symbol op
  rw [h, Operator.ofSymbol?_symbol op'] at hop
  exact (Option.some.inj hop).symm

namespace Expr

theorem labels_leaf (l : Literal) : labels (.leaf l) = .leaf l.text := rfl

theorem labels_node (op : Operator) (l r : Expr) :
    labels (.node op l r) = .node op.symbol (labels l) (labels r) := rfl

theorem labels_injective : Function.Injective labels := by
  intro e f h
  induction e generalizing f with
  | leaf l =>
    cases f with
    | leaf m => rw [Literal.text_injective (Tree.leaf.inj h)]
    | node op' a' b' => cases h
  | node op a b iha ihb =>
    cases f with
    | leaf m => cases h
    | node op' a' b' =>
      obtain ⟨hop, ha, hb⟩ := Tree.node.inj h
      rw [Operator.symbol_injective hop, iha ha, ihb hb]

end Expr

/-! ## The limited walk -/

theorem Draft.labels_draft {n : Nat} {e : Expr} (h : Tree.height e ≤ n) :
    Draft.labels n (Expr.draft e) = .ok (Expr.labels e) := by
  induction e generalizing n with
  | leaf l =>
    cases n with
    | zero => cases h
    | succ n => rfl
  | node op l r ihl ihr =>
    cases n with
    | zero =>
      rw [Tree.height] at h
      omega
    | succ n =>
      rw [Tree.height] at h
      have hl : Tree.height l ≤ n := by omega
      have hr : Tree.height r ≤ n := by omega
      rw [Expr.draft_node, Draft.labels, ihl hl, ihr hr]
      rfl

theorem Draft.labels_draft_of_lt {n : Nat} {e : Expr} (h : n < Tree.height e) :
    Draft.labels n (Expr.draft e) = .error .tooDeep := by
  induction e generalizing n with
  | leaf l =>
    rw [Tree.height, Nat.lt_one_iff] at h
    subst h
    rfl
  | node op l r ihl ihr =>
    cases n with
    | zero => rfl
    | succ n =>
      rw [Tree.height] at h
      rw [Expr.draft_node, Draft.labels]
      by_cases hl : n < Tree.height l
      · rw [ihl hl, error_bind]
      · -- the walk comes back from the left subtree, so the right one is too high
        have hr : n < Tree.height r := by omega
        rw [Draft.labels_draft (Nat.le_of_not_lt hl), ok_bind, ihr hr, error_bind]

namespace Expression

theorem labels_eq_ok_iff {e : Expression} {t : Tree String String} :
    e.labels = .ok t ↔ e.root.height ≤ maxDepth ∧ Expr.labels e.root = t := by
  by_cases h : e.root.height ≤ maxDepth
  · rw [labels, Draft.labels_draft h]
    simp [h]
  · rw [labels, Draft.labels_draft_of_lt (Nat.lt_of_not_le h)]
    simp [h]

/-- An expression has a form exactly if the walk can follow its tree. -/
theorem labels_bind_eq_ok_iff {form : Tree String String → String} {e : Expression} {s : String} :
    (do
      let t ← e.labels
      return form t) = .ok s ↔ e.root.height ≤ maxDepth ∧ form (Expr.labels e.root) = s := by
  rw [bind_eq_ok_iff]
  simp only [labels_eq_ok_iff, and_assoc, pure, Except.pure, Except.ok.injEq, exists_and_left,
    exists_eq_left']

/-- Where a form tells trees apart, two expressions that share it have the same tree. -/
theorem exists_labels_bind_iff {form : Tree String String → String}
    (hform : ∀ {r s : Expr}, form (Expr.labels r) = form (Expr.labels s) → r = s)
    {e f : Expression} :
    (∃ s,
      (do
        let t ← e.labels
        return form t) = .ok s ∧
      (do
        let t ← f.labels
        return form t) = .ok s) ↔ e.root = f.root ∧ e.root.height ≤ maxDepth := by
  simp only [labels_bind_eq_ok_iff]
  constructor
  · rintro ⟨s, ⟨he, hes⟩, -, hfs⟩
    exact ⟨hform (hes.trans hfs.symm), he⟩
  · rintro ⟨hroot, he⟩
    refine ⟨form (Expr.labels e.root), ⟨he, rfl⟩, ?_⟩
    rw [← hroot]
    exact ⟨he, rfl⟩

end Expression

end ReversePolish
