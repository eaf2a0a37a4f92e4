import ReversePolish.Evaluation
import ReversePolish.Rendering
import ReversePolish.Text.Quoted

set_option autoImplicit false

/-! # Expressions

An expression is a checked tree together with its domain and the text it was read from. It never
changes: every question about it is answered from these three parts, within the depth that walks
can follow. -/

namespace ReversePolish

/-- A tree with its domain and the text it comes from. -/
structure Expression where
  domain : Domain
  root : Expr
  source : String
deriving DecidableEq, Repr

/-- The outcome of an evaluation, with the domain of the expression. -/
structure Evaluation where
  domain : Domain
  trace : Trace
deriving DecidableEq, Repr

namespace Expression

/-! ## Evaluation -/

/-- The value. -/
def evaluate (e : Expression) : Except EvaluationError Operand :=
  Draft.evaluate maxDepth (Expr.draft e.root)

/-- The value with the steps that lead to it. -/
def trace (e : Expression) : Except EvaluationError Trace :=
  Draft.trace maxDepth (Expr.draft e.root)

/-- The value with its steps and the domain. -/
def evaluation (e : Expression) : Except EvaluationError Evaluation := do
  let t ← e.trace
  return ⟨e.domain, t⟩

/-! ## Written forms -/

/-- The tree of texts. -/
def labels (e : Expression) : Except RenderingError (Tree String String) :=
  Draft.labels maxDepth (Expr.draft e.root)

/-- The bracketed form with the operators between their operands. -/
def infixForm (e : Expression) : Except RenderingError String := do
  let t ← e.labels
  return t.infixForm

/-- The bracketed form with the operators in front of their operands. -/
def prefixForm (e : Expression) : Except RenderingError String := do
  let t ← e.labels
  return t.prefixForm

/-- The diagram. -/
def diagram (e : Expression) : Except RenderingError String := do
  let t ← e.labels
  return t.diagram

/-- All three forms. -/
def render (e : Expression) : Except RenderingError Rendering :=
  Draft.render maxDepth (Expr.draft e.root)

/-! ## Measures and comparison -/

/-- The measures, unless the tree is too high. -/
def stats? (e : Expression) : Option Stats :=
  e.root.stats? maxDepth

/-- The height, unless the tree is too high. -/
def height? (e : Expression) : Option Nat :=
  e.stats?.map (·.height)

/-- A short description: the domain and the source in quotes. -/
def describe (e : Expression) : String :=
  let kind := match e.domain with
    | .arithmetic => "ArithmeticTree"
    | .interval => "IntervalTree"
  kind ++ "(" ++ quoted e.source ++ ")"

/-- Whether two expressions are equal, their numbers compared as numbers. -/
def sameAs (e f : Expression) : Bool :=
  e.domain == f.domain && Expr.sameValue e.root f.root && e.source == f.source

end Expression

end ReversePolish
