import ReversePolish.Json.Shown
import ReversePolish.Lenient
import ReversePolish.Reading

set_option autoImplicit false

/-! # Expressions as documents

An expression is exchanged as a JSON object with its domain, its root and its source. A node is
an object too: a number or an interval under `value`, or an operator under `op` with its subtrees
under `left` and `right`. The kind of a node may be stated under `node_type`, and then the node
must be of that kind; a node that does not state it and can be read both as an operator and as a
leaf is the operator. -/

namespace ReversePolish

/-! ## Intervals from fields -/

/-- The bound in a field. -/
def boundOfField (name : String) (field : Option Json) : Except FaultReport Int :=
  match field with
  | none => .error (.ofField name .missing)
  | some v =>
    match integerOfJson v with
    | .error f => .error (.ofField name f)
    | .ok i =>
      if i < minBound then .error (.ofField name (.below minBound))
      else if maxBound < i then .error (.ofField name (.above maxBound))
      else .ok i

/-- The interval of the fields `start` and `end`. Their order is looked at when both are fine. -/
def Interval.ofFields (lower upper : Option Json) : Except (List FaultReport) Interval :=
  match boundOfField "start" lower, boundOfField "end" upper with
  | .ok a, .ok b =>
    match Interval.ofBounds? a b with
    | some i => .ok i
    | none => .error [⟨.order a b, []⟩]
  | .error f, .ok _ => .error [f]
  | .ok _, .error g => .error [g]
  | .error f, .error g => .error [f, g]

/-! ## Nodes -/

/-- The depth up to which operators are nested in a document. -/
def maxDocumentNesting : Nat := 255

/-- Whether an object can be a node of that kind. -/
def allowsKind (kind : String) (members : List (String × Json)) : Bool :=
  match Json.lookUp? "node_type" members with
  | none => true
  | some (.string s) => s == kind
  | some _ => false

/-- The number that an object holds as a node. -/
def numberNode? (members : List (String × Json)) : Option Literal :=
  if allowsKind "number" members then
    match (Json.lookUp? "value" members).bind numberOfJson? with
    | some (.finite x) => some (.number x)
    | _ => none
  else none

/-- The interval that an object holds as a node. -/
def intervalNode? (members : List (String × Json)) : Option Literal :=
  if allowsKind "interval" members then
    match Json.lookUp? "value" members with
    | some (.object bounds) =>
      match Interval.ofFields (Json.lookUp? "start" bounds) (Json.lookUp? "end" bounds) with
      | .ok i => some (.interval i)
      | .error _ => none
    | _ => none
  else none

/-- The operator that an object holds as a node. -/
def operatorOfNode? (members : List (String × Json)) : Option Operator :=
  if allowsKind "operator" members then
    match Json.lookUp? "op" members with
    | some (.string s) => Operator.ofSymbol? s
    | _ => none
  else none

/-- The leaf that an object holds as a node. -/
def leafNode? (members : List (String × Json)) : Option Expr :=
  ((numberNode? members).or (intervalNode? members)).map .leaf

/-- The tree of a node with at most so many operators above one another. -/
def Expr.ofJson? : Nat → Json → Option Expr
  | 0, .object members => leafNode? members
  | n + 1, .object members =>
    let whole := do
      let op ← operatorOfNode? members
      let l ← (Json.lookUp? "left" members).bind (Expr.ofJson? n)
      let r ← (Json.lookUp? "right" members).bind (Expr.ofJson? n)
      return Tree.node op l r
    -- a node that reads both ways is the operator
    whole.or (leafNode? members)
  | _, _ => none

/-! ## Expressions -/

/-- The domain that a value names. -/
def Domain.ofJson? : Json → Option Domain
  | .string s => Domain.ofName? s
  | _ => none

/-- The wording for a value that names no domain. -/
def Domain.unknownMessage (v : Json) : String :=
  v.shown ++ " is not a valid Domain"

/-- The text of a field that may be left out. -/
def sourceOfField? : Option Json → Option String
  | none => some ""
  | some (.string s) => some s
  | some _ => none

/-- The expression of a document. -/
def Expression.ofJson? : Json → Option Expression
  | .object members => do
    let domain ← (Json.lookUp? "domain" members).bind Domain.ofJson?
    let root ← (Json.lookUp? "root" members).bind (Expr.ofJson? maxDocumentNesting)
    let source ← sourceOfField? (Json.lookUp? "source_text" members)
    return ⟨domain, root, source⟩
  | _ => none

/-! ## Writing -/

/-- An interval as an object. -/
def Interval.toJson (i : Interval) : Json :=
  .object [("start", .integer i.lower), ("end", .integer i.upper)]

/-- A literal as a node that states its kind. -/
def Literal.toNode : Literal → Json
  | number x => .object [("node_type", .string "number"), ("value", .float (.finite x))]
  | interval i => .object [("node_type", .string "interval"), ("value", i.toJson)]

/-- A tree as a node; every node states its kind. -/
def Expr.toJson : Expr → Json
  | .leaf l => l.toNode
  | .node op l r =>
    .object
      [("node_type", .string "operator"), ("op", .string op.symbol), ("left", Expr.toJson l),
        ("right", Expr.toJson r)]

/-- An expression as a document. -/
def Expression.toJson (e : Expression) : Json :=
  .object
    [("domain", .string e.domain.name), ("root", Expr.toJson e.root),
      ("source_text", .string e.source)]

end ReversePolish
