import ReversePolish.Expr

set_option autoImplicit false

/-! # Evaluation

A tree is evaluated from the leaves to the root. `evaluate` gives the value alone; `trace` gives
it with one step for each operator, in the order in which the operators are applied. The two
differ in when they look an operator up: `evaluate` does before it goes into the subtrees,
`trace` after. -/

namespace ReversePolish

/-! ## Values -/

/-- The value of a leaf. -/
def Part.value : Part → Except EvaluationError Operand
  | operand v => .ok v
  | foreign _ => .error .foreignNode

/-- The operator that a symbol names. -/
def lookUpOperator (symbol : String) : Except EvaluationError Operator :=
  match Operator.ofSymbol? symbol with
  | some op => .ok op
  | none => .error (.unknownOperator symbol)

/-- The value of a draft of at most so many levels. -/
def Draft.evaluate : Nat → Draft → Except EvaluationError Operand
  | 0, _ => .error .tooDeep
  | _ + 1, .leaf p => p.value
  | n + 1, .node symbol l r => do
    let op ← lookUpOperator symbol
    let a ← Draft.evaluate n l
    let b ← Draft.evaluate n r
    op.apply a b

/-! ## Traces -/

/-- One application of an operator. -/
structure Step where
  op : Operator
  left : Operand
  right : Operand
  result : Operand
deriving DecidableEq, Repr

/-- A step as a line: `left op right = result`. -/
def Step.text (s : Step) : String :=
  s.left.text ++ " " ++ s.op.symbol ++ " " ++ s.right.text ++ " = " ++ s.result.text

/-- A value with the steps that lead to it. -/
structure Trace where
  value : Operand
  steps : List Step
deriving DecidableEq, Repr

namespace Trace

/-- The canonical text of the value. -/
def display (t : Trace) : String :=
  t.value.text

/-- The steps as lines. -/
def lines (t : Trace) : List String :=
  t.steps.map Step.text

/-- The trace of an operator over the traces of its subtrees. -/
def join (op : Operator) (l r : Trace) (result : Operand) : Trace :=
  ⟨result, l.steps ++ r.steps ++ [⟨op, l.value, r.value, result⟩]⟩

end Trace

/-- The trace of a draft of at most so many levels. -/
def Draft.trace : Nat → Draft → Except EvaluationError Trace
  | 0, _ => .error .tooDeep
  | _ + 1, .leaf p => do
    let v ← p.value
    return ⟨v, []⟩
  | n + 1, .node symbol l r => do
    -- the symbol is looked up last, so an obstacle in a subtree wins over it
    let s ← Draft.trace n l
    let t ← Draft.trace n r
    let op ← lookUpOperator symbol
    let v ← op.apply s.value t.value
    return .join op s t v

end ReversePolish
