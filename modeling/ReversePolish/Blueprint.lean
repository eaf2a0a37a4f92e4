import ReversePolish.Document

set_option autoImplicit false

/-! # Building trees by hand

A blueprint says how to put a tree together. It is followed from the leaves to the root, the left
subtree first, and the first node that cannot be built ends it. With checks a number must be
finite, an operator one of the six, and what stands in the place of a node a node; an interval is
always checked. -/

namespace ReversePolish

/-- A plan of a tree. -/
inductive Blueprint where
  | number (x : Binary64)
  | interval (lower upper : Json)
  | operator (symbol : String) (left right : Blueprint)
  | foreign (text : String)
deriving Inhabited

namespace Blueprint

/-! ## Checks -/

/-- The kinds of node, under the names that faults have for them. -/
def nodeKinds : List String :=
  ["NumberLeaf", "IntervalLeaf", "OperatorNode"]

/-- The faults of what stands in the place of a node: a foreign text is none of the kinds. -/
def faultsAt (place : String) : Draft → List FaultReport
  | .leaf (.foreign _) => nodeKinds.map fun kind => ⟨.notANode kind, [.name place, .name kind]⟩
  | _ => []

/-- The faults of an operator with its subtrees. -/
def faultsOfOperator (symbol : String) (left right : Draft) : List FaultReport :=
  (if (Operator.ofSymbol? symbol).isSome then [] else [.ofField "op" .notAnOperator]) ++
    faultsAt "left" left ++ faultsAt "right" right

/-- A draft, unless it has faults that are looked at. -/
def accept (checked : Bool) (faults : List FaultReport) (draft : Draft) :
    Except (List FaultReport) Draft :=
  if checked && !faults.isEmpty then .error faults else .ok draft

/-! ## Building -/

/-- The draft of a subtree. -/
def buildNode (checked : Bool) : Blueprint → Except (List FaultReport) Draft
  | number x =>
    accept checked (if x.isFinite then [] else [.ofField "value" .notFinite])
      (.leaf (.operand (.number x)))
  | interval lower upper => do
    let i ← Interval.ofFields (some lower) (some upper)
    return .leaf (.operand (.interval i))
  | operator symbol l r => do
    let l ← l.buildNode checked
    let r ← r.buildNode checked
    accept checked (faultsOfOperator symbol l r) (.node symbol l r)
  | foreign text => .ok (.leaf (.foreign text))

/-- The draft of a blueprint. -/
def build (checked : Bool) (b : Blueprint) : Except (List FaultReport) Draft := do
  let root ← b.buildNode checked
  accept checked (faultsAt "root" root) root

end Blueprint

end ReversePolish
