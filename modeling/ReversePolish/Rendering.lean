import ReversePolish.Expr
import ReversePolish.Form.Diagram
import ReversePolish.Form.Linear

set_option autoImplicit false

/-! # Rendering

A draft is rendered in two moves. A walk replaces every label by its text, and stops at a leaf
that has none or at the depth it cannot follow; the tree of texts that it leaves has every
form. -/

namespace ReversePolish

/-- Why a tree has no written form. -/
inductive RenderingError where
  /-- A leaf is no operand. -/
  | foreignLeaf
  /-- The tree is higher than the walk can follow. -/
  | tooDeep
deriving DecidableEq, Repr

/-- The wording of an error. -/
def RenderingError.message : RenderingError → String
  | foreignLeaf => "Nieznany typ liścia: <class 'str'>"
  | tooDeep => "maximum recursion depth exceeded"

/-- The text of a leaf. -/
def Part.label : Part → Except RenderingError String
  | operand v => .ok v.text
  | foreign _ => .error .foreignLeaf

/-- The tree of texts of a draft of at most so many levels. -/
def Draft.labels : Nat → Draft → Except RenderingError (Tree String String)
  | 0, _ => .error .tooDeep
  | _ + 1, .leaf p => do
    let a ← p.label
    return .leaf a
  | n + 1, .node symbol l r => do
    let l ← Draft.labels n l
    let r ← Draft.labels n r
    return .node symbol l r

/-- The tree of texts of a checked tree. -/
def Expr.labels (e : Expr) : Tree String String :=
  e.relabel Operator.symbol Literal.text

/-! ## All forms at once -/

/-- The three forms of a tree. -/
structure Rendering where
  infixForm : String
  prefixForm : String
  diagram : String
deriving DecidableEq, Repr

/-- The three forms of a tree of texts. -/
def Tree.rendering (t : Tree String String) : Rendering :=
  ⟨t.infixForm, t.prefixForm, t.diagram⟩

/-- The three forms of a draft. -/
def Draft.render (limit : Nat) (d : Draft) : Except RenderingError Rendering := do
  let t ← Draft.labels limit d
  return t.rendering

end ReversePolish
