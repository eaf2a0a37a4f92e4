import ReversePolish.Binary64.Text
import ReversePolish.Interval
import ReversePolish.Domain

set_option autoImplicit false

/-! # Operands

The values of evaluation are numbers and intervals. A literal, which is what a leaf of a checked
tree holds, is an operand that can be written down: its number is finite. -/

namespace ReversePolish

/-- A value. -/
inductive Operand where
  | number (x : Binary64)
  | interval (i : Interval)
deriving DecidableEq, Repr

namespace Operand

/-- The canonical text. -/
def chars : Operand → List Char
  | number x => x.chars
  | interval i => i.chars

/-- The canonical text as a string. -/
def text (v : Operand) : String :=
  String.ofList v.chars

/-- Whether the value is the number zero, of either sign. -/
def isZero : Operand → Bool
  | number x => x.isZero
  | interval _ => false

/-- Whether the value is the marked interval that stands for no integer. -/
def isEmpty : Operand → Bool
  | number _ => false
  | interval i => i.isEmpty

/-- The domain of the value. -/
def domain : Operand → Domain
  | number _ => .arithmetic
  | interval _ => .interval

end Operand

/-- An operand that a leaf of a checked tree can hold. -/
inductive Literal where
  | number (x : Binary64.Finite)
  | interval (i : Interval)
deriving DecidableEq, Repr

namespace Literal

/-- The value of the literal. -/
def operand : Literal → Operand
  | number x => .number (.finite x)
  | interval i => .interval i

/-- The canonical text as a string. -/
def text (l : Literal) : String :=
  l.operand.text

/-- The domain of the literal. -/
def domain (l : Literal) : Domain :=
  l.operand.domain

/-- Whether two literals are equal as values: the two zeros are. -/
def sameValue : Literal → Literal → Bool
  | number x, number y => x.sameValue y
  | interval i, interval j => i == j
  | _, _ => false

end Literal

end ReversePolish
