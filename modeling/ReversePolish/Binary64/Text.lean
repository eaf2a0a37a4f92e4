import ReversePolish.Binary64.Shortest

set_option autoImplicit false

/-! # Texts of a number

The *shortest text* writes the shortest decimal: with all digits in their places while the first
of them stands at most sixteen places before the point and at most four behind it, and with an
exponent otherwise. The *canonical text* is the same but for whole numbers, which it writes with
all their digits, a point and one zero, whatever their size. -/

namespace ReversePolish

attribute [local instance] corePow

namespace Binary64

/-! ## Layout of a decimal -/

/-- A decimal ready to be laid out: `0.d₁d₂… * 10 ^ point`. -/
structure Layout where
  digits : List Char
  point : Int

/-- The digits of a decimal without the zeros at their end, and the place of its point. -/
def layoutOf (d : ShortDecimal) : Layout :=
  let ds := Decimal.digits d.coefficient
  { digits := (ds.reverse.dropWhile (· == '0')).reverse, point := ds.length + d.exponent }

/-- An exponent: its sign and at least two digits. -/
def exponentChars (e : Int) : List Char :=
  let ds := Decimal.digits e.natAbs
  (if e < 0 then '-' else '+') :: (List.replicate (2 - ds.length) '0' ++ ds)

/-- One digit, the others behind a point, and the exponent. -/
def scientific (l : Layout) : List Char :=
  match l.digits with
  | [] => []
  | d :: ds =>
    d :: (if ds.isEmpty then [] else '.' :: ds) ++ 'e' :: exponentChars (l.point - 1)

/-- All digits in their places, with at least one digit on either side of the point. -/
def positional (l : Layout) : List Char :=
  if l.point ≤ 0 then '0' :: '.' :: (List.replicate l.point.natAbs '0' ++ l.digits)
  else
    let whole := l.digits.take l.point.toNat
    let fraction := l.digits.drop l.point.toNat
    whole ++ List.replicate (l.point.toNat - whole.length) '0' ++
      '.' :: (if fraction.isEmpty then ['0'] else fraction)

/-- A decimal as text. -/
def decimalChars (d : ShortDecimal) : List Char :=
  let l := layoutOf d
  if -4 < l.point ∧ l.point ≤ 16 then positional l else scientific l

/-! ## Numbers -/

namespace Finite

/-- Whether the number is whole. -/
def isWhole (x : Finite) : Bool :=
  x.quanta % 2 ^ (1074 : Nat) == 0

/-- The sign, which only a negative number or zero shows. -/
def signChars (x : Finite) : List Char :=
  if x.negative then ['-'] else []

/-- The shortest text. -/
def shortChars (x : Finite) : List Char :=
  x.signChars ++ if x.isZero then ['0', '.', '0'] else decimalChars (shortest x)

/-- The canonical text. -/
def chars (x : Finite) : List Char :=
  if x.isWhole then x.signChars ++ (Decimal.digits (x.quanta / 2 ^ (1074 : Nat)) ++ ['.', '0'])
  else x.shortChars

end Finite

/-- The text of a number that is not finite, or the text of a finite one in the given form. -/
def charsWith (form : Finite → List Char) : Binary64 → List Char
  | nan => ['n', 'a', 'n']
  | infinity s => if s then ['-', 'i', 'n', 'f'] else ['i', 'n', 'f']
  | finite x => form x

/-- The canonical text of any number. -/
def chars (x : Binary64) : List Char :=
  x.charsWith Finite.chars

/-- The canonical text of any number, as a string. -/
def text (x : Binary64) : String :=
  String.ofList x.chars

/-- The shortest text of any number, as a string. -/
def shortText (x : Binary64) : String :=
  String.ofList (x.charsWith Finite.shortChars)

end Binary64

end ReversePolish
