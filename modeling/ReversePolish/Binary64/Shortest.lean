import ReversePolish.Binary64.Round
import ReversePolish.Decimal

set_option autoImplicit false

/-! # Shortest decimals

Of the decimals that round to a given number, the one with the fewest digits, and of those the
nearest. The exact decimal expansion of the number is cut after one digit, after two, and so on;
each cut leaves two candidates, one below and one above, and the first cut with a candidate that
rounds back decides. The cut after the last digit is the number itself, so one always does. -/

namespace ReversePolish

attribute [local instance] corePow

/-- The decimal `coefficient * 10 ^ exponent`. -/
structure ShortDecimal where
  coefficient : Nat
  exponent : Int
deriving DecidableEq, Repr

namespace Binary64

/-- The coefficient of the exact expansion of a magnitude, over `10 ^ 1074`. -/
def exactCoefficient (x : Finite) : Nat :=
  x.quanta * 5 ^ (1074 : Nat)

/-- Whether a decimal rounds to the magnitude of the number. -/
def readsBack (x : Finite) (d : ShortDecimal) : Bool :=
  ofDecimal x.negative d.coefficient d.exponent == finite x

/-- The two decimals next to the exact expansion when `dropped` digits are cut off, the nearer
    one first and of two equally near ones the one with the even last digit. -/
def neighbours (exact dropped : Nat) : List ShortDecimal :=
  let unit := 10 ^ dropped
  let low := exact / unit
  let rest := exact % unit
  let below : ShortDecimal := ⟨low, (dropped : Int) - 1074⟩
  let above : ShortDecimal := ⟨low + 1, (dropped : Int) - 1074⟩
  if 2 * rest < unit || (2 * rest == unit && low % 2 == 0) then [below, above]
  else [above, below]

/-- The shortest decimal that rounds to the number, the nearest of those. -/
def shortest (x : Finite) : ShortDecimal :=
  let exact := exactCoefficient x
  -- the candidates with one digit come first, those with all digits last
  let length := (Decimal.digits exact).length
  let found := (List.range length).findSome? fun i =>
    (neighbours exact (length - 1 - i)).find? (readsBack x)
  found.getD ⟨exact, -1074⟩

end Binary64

end ReversePolish
