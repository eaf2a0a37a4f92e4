set_option autoImplicit false

/-! # Binary trees of operators

A tree has operators at its inner nodes and operands at its leaves, of whatever types. Its
listings give the same nodes in four orders; `postorder` is the one that reverse Polish notation
writes. -/

namespace ReversePolish

/-- A tree of operators `ω` over leaves `α`. -/
inductive Tree (ω α : Type) where
  | leaf (a : α)
  | node (op : ω) (left right : Tree ω α)
deriving DecidableEq, Repr

namespace Tree

variable {ω α ω' α' : Type}

/-! ## Measures -/

/-- The number of levels; a leaf has one. -/
def height : Tree ω α → Nat
  | leaf _ => 1
  | node _ l r => 1 + max l.height r.height

/-- The number of leaves. -/
def leafCount : Tree ω α → Nat
  | leaf _ => 1
  | node _ l r => l.leafCount + r.leafCount

/-- The number of operators. -/
def operatorCount : Tree ω α → Nat
  | leaf _ => 0
  | node _ l r => 1 + l.operatorCount + r.operatorCount

/-! ## Listings -/

/-- Left subtree, right subtree, operator. -/
def postorder : Tree ω α → List (ω ⊕ α)
  | leaf a => [.inr a]
  | node op l r => l.postorder ++ r.postorder ++ [.inl op]

/-- Operator, left subtree, right subtree. -/
def preorder : Tree ω α → List (ω ⊕ α)
  | leaf a => [.inr a]
  | node op l r => .inl op :: l.preorder ++ r.preorder

/-- Left subtree, operator, right subtree. -/
def inorder : Tree ω α → List (ω ⊕ α)
  | leaf a => [.inr a]
  | node op l r => l.inorder ++ .inl op :: r.inorder

/-- The leaves from left to right. -/
def leaves : Tree ω α → List α
  | leaf a => [a]
  | node _ l r => l.leaves ++ r.leaves

/-! ## Relabelling -/

/-- The tree of the same shape with other labels. -/
def relabel (f : ω → ω') (g : α → α') : Tree ω α → Tree ω' α'
  | leaf a => leaf (g a)
  | node op l r => node (f op) (l.relabel f g) (r.relabel f g)

/-- Whether two trees have the same shape and labels that match. -/
def agrees [BEq ω] (same : α → α → Bool) : Tree ω α → Tree ω α → Bool
  | leaf a, leaf b => same a b
  | node op l r, node op' l' r' => op == op' && l.agrees same l' && r.agrees same r'
  | _, _ => false

/-! ## Lemmas -/

theorem leafCount_eq_operatorCount_add_one (t : Tree ω α) :
    t.leafCount = t.operatorCount + 1 := by
  induction t with
  | leaf => rfl
  | node _ l r ihl ihr =>
    simp only [leafCount, operatorCount, ihl, ihr]
    omega

theorem length_leaves (t : Tree ω α) : t.leaves.length = t.leafCount := by
  induction t with
  | leaf => rfl
  | node _ l r ihl ihr => simp [leaves, leafCount, ihl, ihr]

theorem postorder_relabel (f : ω → ω') (g : α → α') (t : Tree ω α) :
    (t.relabel f g).postorder = t.postorder.map (Sum.map f g) := by
  induction t with
  | leaf => rfl
  | node _ l r ihl ihr => simp [relabel, postorder, ihl, ihr]

theorem height_pos (t : Tree ω α) : 0 < t.height := by
  cases t with
  | leaf => exact Nat.one_pos
  | node => simp only [height]; omega

end Tree

end ReversePolish
