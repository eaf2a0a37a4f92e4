import ReversePolish.Binary64.Arithmetic
import ReversePolish.Operand
import ReversePolish.Text.Quoted

set_option autoImplicit false

/-! # Operators

The four operators of arithmetic and the two of intervals, and what each does with two values.
An operator can meet values of the other domain in a tree that was built by hand; then it has no
result. Division looks at its divisor first, so a zero divisor counts before the kind of the
dividend. -/

namespace ReversePolish

/-- The six operators. -/
inductive Operator where
  | add
  | sub
  | mul
  | div
  | union
  | inter
deriving DecidableEq, Repr

/-- Why a tree has no value. -/
inductive EvaluationError where
  /-- The divisor is zero. -/
  | divisionByZero (left right : Operand)
  /-- An operator of arithmetic meets an interval. -/
  | unsupported (op : Operator) (left right : Operand)
  /-- An operator of intervals meets a number, which has no bounds. -/
  | noBounds
  /-- A symbol that is no operator. -/
  | unknownOperator (symbol : String)
  /-- Something in the tree is neither leaf nor operator. -/
  | foreignNode
  /-- The tree is higher than the walk can follow. -/
  | tooDeep
deriving DecidableEq, Repr

namespace Operator

/-- All operators, those of arithmetic first. -/
def all : List Operator :=
  [add, sub, mul, div, union, inter]

/-- The character that stands for the operator. -/
def char : Operator → Char
  | add => '+'
  | sub => '-'
  | mul => '*'
  | div => '/'
  | union => 'U'
  | inter => 'I'

/-- The symbol as a text. -/
def symbol (op : Operator) : String :=
  String.ofList [op.char]

/-- The operator of that symbol. -/
def ofSymbol? (s : String) : Option Operator :=
  all.find? (·.symbol == s)

/-- The domain whose values the operator takes. -/
def domain : Operator → Domain
  | add | sub | mul | div => .arithmetic
  | union | inter => .interval

/-- The symbols of a domain. -/
def symbolsOf (d : Domain) : List String :=
  (all.filter (·.domain == d)).map symbol

/-- The operator that a symbol stands for in a domain. -/
def ofSymbolIn? (d : Domain) (s : String) : Option Operator :=
  (ofSymbol? s).filter (·.domain == d)

theorem ofSymbol?_symbol (op : Operator) : ofSymbol? op.symbol = some op := by
  cases op <;> rfl

/-- The result on two numbers, or on anything else the error. -/
def onNumbers (op : Operator) (f : Binary64 → Binary64 → Binary64) :
    Operand → Operand → Except EvaluationError Operand
  | .number x, .number y => .ok (.number (f x y))
  | a, b => .error (.unsupported op a b)

/-- The result on two intervals, or on anything else the error. -/
def onIntervals (f : Interval → Interval → Interval) :
    Operand → Operand → Except EvaluationError Operand
  | .interval i, .interval j => .ok (.interval (f i j))
  | _, _ => .error .noBounds

/-- The result of the operator on two values. -/
def apply (op : Operator) (a b : Operand) : Except EvaluationError Operand :=
  match op with
  | add => add.onNumbers (· + ·) a b
  | sub => sub.onNumbers (· - ·) a b
  | mul => mul.onNumbers (· * ·) a b
  -- the divisor is looked at before the kinds of the operands
  | div => if b.isZero then .error (.divisionByZero a b) else div.onNumbers (· / ·) a b
  | union => onIntervals .hull a b
  | inter => onIntervals .meet a b

end Operator

/-! ## Wording -/

namespace EvaluationError

/-- What a message calls a value. -/
def kindName : Operand → String
  | .number _ => "float"
  | .interval _ => "Interval"

/-- The wording of an error. -/
def message : EvaluationError → String
  | divisionByZero a b => "Division by zero: " ++ a.text ++ " / " ++ b.text
  | unsupported op a b =>
    "unsupported operand type(s) for " ++ op.symbol ++ ": '" ++ kindName a ++ "' and '" ++
      kindName b ++ "'"
  | noBounds => "'float' object has no attribute 'start'"
  | unknownOperator s => "Nieznany operator: " ++ quoted s
  | foreignNode => "Nieznany typ węzła drzewa: <class 'str'>"
  | tooDeep => "maximum recursion depth exceeded"

end EvaluationError

end ReversePolish
