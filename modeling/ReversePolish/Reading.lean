import ReversePolish.Expression
import ReversePolish.Literal.Number
import ReversePolish.SyntaxError
import ReversePolish.Token

set_option autoImplicit false

/-! # Reading expressions

A text in reverse Polish notation is read token by token over a stack of trees. An operator takes
the two topmost trees, the right one first, and puts back one; any other token is a literal of
the domain and becomes a leaf. One tree must be left at the end. Reading stops at the first token
that does not fit. -/

namespace ReversePolish

/-- Why reading stops: an error of syntax, or a bound with too many digits to be converted. -/
inductive ReadingFailure where
  | syntaxError (e : SyntaxError)
  | tooManyDigits (digits : Nat)
deriving DecidableEq, Repr

/-! ## Literals -/

/-- The number literal of a token. -/
def readNumber (token : String) (position : Nat) : Except ReadingFailure Literal :=
  match (DecimalLiteral.read? token.toList).map DecimalLiteral.number with
  | none => .error (.syntaxError (.badLiteral .notANumber token position))
  | some (.finite x) => .ok (.number x)
  | some _ => .error (.syntaxError (.badLiteral .outOfRange token position))

/-- The interval literal of a token. -/
def readInterval (token : String) (position : Nat) : Except ReadingFailure Literal :=
  match IntervalLiteral.read token.toList with
  | .ok i => .ok (.interval i)
  | .error (.format fault) =>
    .error (.syntaxError (.badLiteral (.interval fault) token position))
  | .error .startAfterEnd => .error (.syntaxError (.badLiteral .startAfterEnd token position))
  | .error (.tooManyDigits n) => .error (.tooManyDigits n)

/-- The literal of a token at its position, in a domain. -/
def readLiteral : Domain → String → Nat → Except ReadingFailure Literal
  | .arithmetic => readNumber
  | .interval => readInterval

/-! ## The stack -/

/-- The stack after a token; the head of the list is the top. -/
def readToken (d : Domain) (position : Nat) (token : String) (stack : List Expr) :
    Except ReadingFailure (List Expr) :=
  match Operator.ofSymbolIn? d token with
  | some op =>
    match stack with
    | right :: left :: rest => .ok (.node op left right :: rest)
    | _ => .error (.syntaxError (.insufficientOperands token position stack.length))
  | none => do
    let l ← readLiteral d token position
    return .leaf l :: stack

/-- The stack after the remaining tokens, the first of which has the given position. -/
def readTokens (d : Domain) : Nat → List String → List Expr → Except ReadingFailure (List Expr)
  | _, [], stack => .ok stack
  | position, token :: rest, stack => do
    let stack ← readToken d position token stack
    readTokens d (position + 1) rest stack

/-- The one tree that is left at the end. -/
def finish : List Expr → Except ReadingFailure Expr
  | [e] => .ok e
  | [] => .error (.syntaxError .noResult)
  | stack => .error (.syntaxError (.tooManyOperands stack.length))

/-- The tree of a list of tokens. -/
def readTree (d : Domain) (ts : List String) : Except ReadingFailure Expr := do
  let stack ← readTokens d 0 ts []
  finish stack

/-! ## Expressions -/

namespace Expression

/-- The expression of a text, whose source is the text without the blanks around it. -/
def read (d : Domain) (text : String) : Except ReadingFailure Expression :=
  match tokenize text with
  | [] => .error (.syntaxError .emptyExpression)
  | ts => do
    let root ← readTree d ts
    return ⟨d, root, trimText isBlank text⟩

/-- `read`, where no text at all is an empty expression. -/
def read? (d : Domain) : Option String → Except ReadingFailure Expression
  | none => .error (.syntaxError .emptyExpression)
  | some text => read d text

/-- What an attempt at reading comes to: an expression or an error of syntax. -/
inductive Outcome where
  | accepted (e : Expression)
  | rejected (e : SyntaxError)
deriving DecidableEq, Repr

namespace Outcome

/-- Whether it is an expression. -/
def ok : Outcome → Bool
  | accepted _ => true
  | rejected _ => false

/-- The expression, if it is one. -/
def tree? : Outcome → Option Expression
  | accepted e => some e
  | rejected _ => none

/-- The report of the error, if it is one. -/
def issue? : Outcome → Option SyntaxError.Issue
  | accepted _ => none
  | rejected e => some e.issue

end Outcome

/-- An attempt at reading. It fails only where a bound has too many digits, and then with their
    number. -/
def attempt (d : Domain) (text : Option String) : Except Nat Outcome :=
  match read? d text with
  | .ok e => .ok (.accepted e)
  | .error (.syntaxError e) => .ok (.rejected e)
  | .error (.tooManyDigits n) => .error n

end Expression

end ReversePolish
