import ReversePolish.Literal.Interval
import ReversePolish.Text.Quoted

set_option autoImplicit false

/-! # Errors of syntax

Why a text is no expression. An error tells its kind and its wording, and where they apply the
token, the position of the token counted from zero, and the number of trees on the stack. -/

namespace ReversePolish

/-- Why a token is no literal of the domain. -/
inductive LiteralError where
  /-- The token is no number. -/
  | notANumber
  /-- The number is beyond the finite ones. -/
  | outOfRange
  /-- The token is no interval. -/
  | interval (fault : IntervalFault)
  /-- The interval ends before it starts. -/
  | startAfterEnd
deriving DecidableEq, Repr

/-- Why a text is no expression. -/
inductive SyntaxError where
  /-- There is no token at all. -/
  | emptyExpression
  /-- The token at the position is no literal. -/
  | badLiteral (cause : LiteralError) (token : String) (position : Nat)
  /-- The operator at the position finds fewer than two trees. -/
  | insufficientOperands (token : String) (position remaining : Nat)
  /-- More than one tree is left at the end. -/
  | tooManyOperands (remaining : Nat)
  /-- No tree is left at the end. -/
  | noResult
deriving DecidableEq, Repr

namespace SyntaxError

/-! ## Kinds -/

/-- The kinds of error of syntax. -/
inductive Kind where
  | emptyExpression
  | invalidToken
  | invalidOperand
  | invalidInterval
  | insufficientOperands
  | tooManyOperands
  | noResult
deriving DecidableEq, Repr

/-- All kinds. -/
def Kind.all : List Kind :=
  [.emptyExpression, .invalidToken, .invalidOperand, .invalidInterval, .insufficientOperands,
    .tooManyOperands, .noResult]

/-- The name of a kind. -/
def Kind.name : Kind → String
  | emptyExpression => "empty_expression"
  | invalidToken => "invalid_token"
  | invalidOperand => "invalid_operand"
  | invalidInterval => "invalid_interval"
  | insufficientOperands => "insufficient_operands"
  | tooManyOperands => "too_many_operands"
  | noResult => "no_result"

/-- The kind of error for a token that is no literal. -/
def kindOfLiteral : LiteralError → Kind
  | .notANumber | .outOfRange => .invalidToken
  | .interval _ => .invalidOperand
  | .startAfterEnd => .invalidInterval

/-- The kind of an error. -/
def kind : SyntaxError → Kind
  | emptyExpression => .emptyExpression
  | badLiteral cause _ _ => kindOfLiteral cause
  | insufficientOperands _ _ _ => .insufficientOperands
  | tooManyOperands _ => .tooManyOperands
  | noResult => .noResult

/-! ## Details -/

/-- The token at fault. -/
def token? : SyntaxError → Option String
  | badLiteral _ token _ | insufficientOperands token _ _ => some token
  | _ => none

/-- The position of the token at fault. -/
def position? : SyntaxError → Option Nat
  | badLiteral _ _ position | insufficientOperands _ position _ => some position
  | _ => none

/-- The number of trees on the stack. -/
def remaining? : SyntaxError → Option Nat
  | insufficientOperands _ _ n | tooManyOperands n => some n
  | _ => none

/-! ## Wording -/

/-- The place of a token that is given between quotes. -/
def placeOfQuoted (quote : String) (position : Nat) : String :=
  " at position " ++ Decimal.natText position ++ ": " ++ quote

/-- The place of a token: its position and the token in quotes. -/
def place (token : String) (position : Nat) : String :=
  placeOfQuoted (quoted token) position

/-- The wording for a token at a place that is no literal. -/
def messageOfLiteral (place : String) : LiteralError → String
  | .notANumber => "Invalid token" ++ place
  | .outOfRange => "Number out of range" ++ place
  | .interval fault => "Invalid interval format" ++ place ++ " (" ++ fault.reason ++ ")"
  | .startAfterEnd => "Invalid interval" ++ place ++ " (start > end)"

/-- The wording of an error. -/
def message : SyntaxError → String
  | emptyExpression => "Expression cannot be null or empty"
  | badLiteral cause token position => messageOfLiteral (place token position) cause
  | insufficientOperands token position n =>
    "Insufficient operands for operator " ++ quoted token ++ " at position " ++
      Decimal.natText position ++ ": need 2, have " ++ Decimal.natText n
  | tooManyOperands n =>
    "Invalid expression: too many operands (" ++ Decimal.natText n ++
      " subtrees left, expected 1)"
  | noResult => "Invalid expression: no result"

/-! ## Issues -/

/-- An error as it is reported: its kind, its wording and its details. -/
structure Issue where
  kind : Kind
  message : String
  token? : Option String
  position? : Option Nat
  remaining? : Option Nat
deriving DecidableEq, Repr

/-- The report of an error. -/
def issue (e : SyntaxError) : Issue :=
  ⟨e.kind, e.message, e.token?, e.position?, e.remaining?⟩

end SyntaxError

/-- The wording for a bound that has too many digits to be converted. -/
def tooManyDigitsMessage (digits : Nat) : String :=
  "Exceeds the limit (" ++ Decimal.natText Decimal.maxDigits ++
    " digits) for integer string conversion: value has " ++ Decimal.natText digits ++
    " digits; use sys.set_int_max_str_digits() to increase the limit"

/-- The name of the one kind of error in evaluating a well-formed tree. -/
def divisionByZeroKind : String :=
  "division_by_zero"

end ReversePolish
