import ReversePolish.Operator
import ReversePolish.Tree

set_option autoImplicit false

/-! # Expression trees

A checked tree has the six operators inside and literals at its leaves. A draft is a tree as it
may be put together by hand: its operators are any texts, its numbers may be infinite, and some
of its leaves may be no operands at all. Every checked tree is a draft, and what evaluates and
writes trees works on drafts.

Walks over a tree follow it down to a limited depth. A walk that meets several obstacles stops at
the first one on its way, and it goes through the left subtree before the right one. -/

namespace ReversePolish

/-- A checked tree. -/
abbrev Expr := Tree Operator Literal

/-- What may stand at a leaf of a draft. -/
inductive Part where
  | operand (v : Operand)
  /-- A text in the place of a node. -/
  | foreign (text : String)
deriving DecidableEq, Repr

/-- A tree that nobody has checked. -/
abbrev Draft := Tree String Part

/-- The number of levels that a walk can follow. -/
def maxDepth : Nat := 1000

/-- A checked tree as a draft. -/
def Expr.draft (e : Expr) : Draft :=
  e.relabel Operator.symbol fun l => .operand l.operand

/-- Whether two checked trees are equal as expressions: the two zeros are. -/
def Expr.sameValue (e f : Expr) : Bool :=
  e.agrees Literal.sameValue f

@[simp] theorem Expr.draft_node (op : Operator) (l r : Expr) :
    Expr.draft (.node op l r) = .node op.symbol (Expr.draft l) (Expr.draft r) := rfl

/-! ## Measures -/

/-- The measures of a tree. -/
structure Stats where
  height : Nat
  leafCount : Nat
  operatorCount : Nat
deriving DecidableEq, Repr

/-- The measures of a tree, unless it is too high. -/
def Tree.stats? {ω α : Type} (limit : Nat) (t : Tree ω α) : Option Stats :=
  if t.height ≤ limit then some ⟨t.height, t.leafCount, t.operatorCount⟩ else none

end ReversePolish
