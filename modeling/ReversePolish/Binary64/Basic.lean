import ReversePolish.Decimal

set_option autoImplicit false

/-! # Binary floating point of 64 bits

The numbers of the IEEE 754 format binary64. A finite number is a sign and a magnitude; the
magnitude is a whole number of *quanta* of `2 ^ (-1074)`, written as a mantissa of at most 53
bits times a power of two. Each magnitude has one such form, because the mantissa is full unless
the power is the lowest. All the payloads of a NaN count as one number. -/

namespace ReversePolish

attribute [local instance] corePow

/-- A finite number: `mantissa * 2 ^ exponent` quanta of `2 ^ (-1074)`, with a sign that zero
    has too. -/
structure Binary64.Finite where
  negative : Bool
  mantissa : Nat
  exponent : Nat
  mantissa_lt : mantissa < 2 ^ (53 : Nat)
  exponent_le : exponent ≤ 2045
  normal : exponent = 0 ∨ 2 ^ (52 : Nat) ≤ mantissa
deriving DecidableEq, Repr

/-- A binary64 number. -/
inductive Binary64 where
  | nan
  | infinity (negative : Bool)
  | finite (x : Binary64.Finite)
deriving DecidableEq, Repr

namespace Binary64

/-! ## Magnitudes -/

namespace Finite

/-- The magnitude in quanta. -/
def quanta (x : Finite) : Nat :=
  x.mantissa * 2 ^ x.exponent

/-- The value in quanta. -/
def signedQuanta (x : Finite) : Int :=
  if x.negative then -(x.quanta : Int) else x.quanta

/-- The number zero, of either sign. -/
def zero (negative : Bool) : Finite :=
  ⟨negative, 0, 0, by decide, by decide, .inl rfl⟩

/-- Whether the number is zero of either sign. -/
def isZero (x : Finite) : Bool :=
  x.mantissa == 0

/-- The number with the other sign. -/
def negate (x : Finite) : Finite :=
  { x with negative := !x.negative }

/-- Whether two numbers are equal as numbers: the two zeros are. -/
def sameValue (x y : Finite) : Bool :=
  x == y || (x.isZero && y.isZero)

end Finite

/-! ## Kinds of number -/

/-- Whether the number is neither infinite nor NaN. -/
def isFinite : Binary64 → Bool
  | finite _ => true
  | _ => false

/-- Whether the number is zero of either sign. -/
def isZero : Binary64 → Bool
  | finite x => x.isZero
  | _ => false

/-- Zero, of either sign. -/
def zero (negative : Bool) : Binary64 :=
  finite (.zero negative)

end Binary64

end ReversePolish
