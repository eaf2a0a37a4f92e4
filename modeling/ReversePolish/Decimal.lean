set_option autoImplicit false

/-! # Decimal numerals

Natural numbers and integers in decimal, as lists of characters: digits without leading zeros on
the way out, any ASCII digits on the way in, and one optional sign for integers. -/

namespace ReversePolish

/-- The powers of the core library. Modules that write powers make this a local instance, so that
    `^` means the same in them whatever else is imported. -/
@[reducible] def corePow {α : Type} [NatPow α] : Pow α Nat :=
  instPowNat

namespace Decimal

/-! ## Natural numbers -/

/-- The digits of a number. -/
def digits (n : Nat) : List Char :=
  Nat.toDigits 10 n

/-- The number that digits denote. -/
def value (cs : List Char) : Nat :=
  Nat.ofDigitChars 10 cs 0

/-- Whether a text is one digit or more. -/
def isNumeral (cs : List Char) : Bool :=
  !cs.isEmpty && cs.all Char.isDigit

theorem value_digits (n : Nat) : value (digits n) = n :=
  Nat.ofDigitChars_ten_toDigits

theorem isNumeral_digits (n : Nat) : isNumeral (digits n) = true := by
  simp only [isNumeral, digits, Bool.and_eq_true, Bool.not_eq_true', List.isEmpty_eq_false_iff,
    List.all_eq_true]
  exact ⟨Nat.toDigits_ne_nil, fun c hc => Nat.isDigit_of_mem_toDigits (by decide) (by decide) hc⟩

/-- The number of digits up to which text is converted to an integer. -/
def maxDigits : Nat := 4300

/-- A number as text. -/
def natText (n : Nat) : String :=
  String.ofList (digits n)

/-! ## Integers -/

/-- The sign in front of a text, if there is one, and what follows it: `true` for a minus. -/
def splitSign : List Char → Bool × List Char
  | '-' :: cs => (true, cs)
  | '+' :: cs => (false, cs)
  | cs => (false, cs)

/-- The characters of an integer. -/
def intDigits (i : Int) : List Char :=
  if i < 0 then '-' :: digits i.natAbs else digits i.natAbs

/-- Whether a text is an optional sign and one digit or more. -/
def isInteger (cs : List Char) : Bool :=
  isNumeral (splitSign cs).2

/-- The integer that a signed numeral denotes. -/
def intValue (cs : List Char) : Int :=
  let (negative, ds) := splitSign cs
  if negative then -(value ds : Int) else value ds

/-- An integer as text. -/
def intText (i : Int) : String :=
  String.ofList (intDigits i)

end Decimal

end ReversePolish
