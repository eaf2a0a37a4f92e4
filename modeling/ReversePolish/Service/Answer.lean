import ReversePolish.Reading.Ragged
import ReversePolish.Service.Order
import ReversePolish.Settings.Basic

set_option autoImplicit false

/-! # Answers

What an order comes to. The length of the text is looked at first, and then the text is read in
the domain of the order or else of the settings. An expression without a value can still be
rendered. An order over a ragged text is never carried out. -/

namespace ReversePolish

namespace Service

/-- Why an order is not carried out. -/
inductive Refusal where
  /-- The text has more characters than the limit. -/
  | tooLong (limit : Int)
  | syntaxError (e : SyntaxError)
  | divisionByZero (left right : Operand)
  /-- The tree is higher than a walk can follow. -/
  | tooDeep
  /-- Something that the service does not provide for. -/
  | broken
deriving DecidableEq, Repr

namespace Refusal

/-- The refusal for a text that cannot be read. -/
def ofReading : ReadingFailure → Refusal
  | .syntaxError e => .syntaxError e
  | .tooManyDigits _ => .broken

/-- The refusal for a ragged text. -/
def ofRagged : RaggedFailure → Refusal
  | .earlier f => ofReading f
  -- the answer would repeat the token, which has no UTF-8 form
  | .badLiteral _ _ _ => .broken

/-- The refusal for an expression without a value. -/
def ofEvaluation : EvaluationError → Refusal
  | .divisionByZero a b => .divisionByZero a b
  | .tooDeep => .tooDeep
  | _ => .broken

/-- The refusal for an expression without a written form. -/
def ofRendering : RenderingError → Refusal
  | .tooDeep => .tooDeep
  | .foreignLeaf => .broken

end Refusal

/-- The expression of an order. -/
def Order.read (s : Settings) (o : Order) : Except Refusal Expression :=
  -- the blanks around the text count for its length
  if s.maxExpressionLength < o.text.length then .error (.tooLong s.maxExpressionLength)
  else (Expression.read (o.domain.getD s.defaultDomain) o.text).mapError Refusal.ofReading

/-- Why an order over a ragged text is not carried out. -/
def RaggedOrder.refusal (s : Settings) (o : RaggedOrder) : Refusal :=
  -- half a pair counts as one character
  if s.maxExpressionLength < o.text.length then .tooLong s.maxExpressionLength
  else .ofRagged (o.text.failure (o.domain.getD s.defaultDomain))

/-! ## Evaluation -/

/-- An evaluation as it is answered. -/
structure EvaluationAnswer where
  domain : Domain
  /-- The value, unless it is an infinite number or NaN. -/
  value : Option Operand
  display : String
  isEmpty : Bool
  steps : List String
deriving DecidableEq, Repr

/-- The value, unless it is an infinite number or NaN. -/
def finiteValue? : Operand → Option Operand
  | .number (.finite x) => some (.number (.finite x))
  | .number _ => none
  | .interval i => some (.interval i)

/-- The answer of an evaluation. -/
def EvaluationAnswer.of (e : Evaluation) : EvaluationAnswer :=
  ⟨e.domain, finiteValue? e.trace.value, e.trace.display, e.trace.value.isEmpty, e.trace.lines⟩

/-- Carries out an order for an evaluation. -/
def evaluate (s : Settings) (o : Order) : Except Refusal EvaluationAnswer := do
  let e ← o.read s
  let r ← e.evaluation.mapError Refusal.ofEvaluation
  return .of r

/-! ## Rendering -/

/-- A rendering as it is answered. -/
structure RenderingAnswer where
  domain : Domain
  rendering : Rendering
  stats : Stats
deriving DecidableEq, Repr

/-- Carries out an order for a rendering. -/
def render (s : Settings) (o : Order) : Except Refusal RenderingAnswer := do
  let e ← o.read s
  let r ← e.render.mapError Refusal.ofRendering
  match e.stats? with
  | some stats => return ⟨e.domain, r, stats⟩
  | none => throw .tooDeep

end Service

end ReversePolish
