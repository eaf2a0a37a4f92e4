import ReversePolish.Binary64.Round
import ReversePolish.Decimal

set_option autoImplicit false

/-! # Number literals

An optional sign; digits with an optional point among or behind them, or a point and digits; an
optional exponent, which is `e` or `E`, an optional sign and digits. All digits are ASCII. The
literal denotes an exact decimal, and its number is that decimal rounded once. -/

namespace ReversePolish

/-- The exact decimal of a literal: `± digits * 10 ^ scale`. -/
structure DecimalLiteral where
  negative : Bool
  digits : List Char
  scale : Int
deriving DecidableEq, Repr

namespace DecimalLiteral

/-- The exponent at the end of a literal; no text at all is the exponent zero. -/
def readExponent? : List Char → Option Int
  | [] => some 0
  | c :: cs =>
    if (c == 'e' || c == 'E') && Decimal.isInteger cs then some (Decimal.intValue cs) else none

/-- What follows the sign of a literal. -/
def readUnsigned? (negative : Bool) (cs : List Char) : Option DecimalLiteral :=
  let whole := cs.takeWhile Char.isDigit
  let (fraction, rest) :=
    match cs.dropWhile Char.isDigit with
    | '.' :: rest => (rest.takeWhile Char.isDigit, rest.dropWhile Char.isDigit)
    | rest => ([], rest)
  if whole.isEmpty && fraction.isEmpty then none
  else
    (readExponent? rest).map fun e => ⟨negative, whole ++ fraction, e - fraction.length⟩

/-- The decimal that a literal denotes; none for a text that is no literal. -/
def read? (cs : List Char) : Option DecimalLiteral :=
  let (negative, rest) := Decimal.splitSign cs
  readUnsigned? negative rest

/-- The number of a literal. -/
def number (l : DecimalLiteral) : Binary64 :=
  .ofDecimal l.negative (Decimal.value l.digits) l.scale

end DecimalLiteral

end ReversePolish
