set_option autoImplicit false

/-! # Characters by code point

A character that cannot be shown is written behind a backslash by its code point: two
hexadecimal digits after `x`, four after `u`, or eight after `U`, whichever is the first that
holds it. -/

namespace ReversePolish

/-- A number in lower-case hexadecimal, in at least `width` digits. -/
def hexDigits (width n : Nat) : List Char :=
  let ds := Nat.toDigits 16 n
  List.replicate (width - ds.length) '0' ++ ds

/-- A character by its code point, behind a backslash. -/
def codePointEscape (c : Char) : List Char :=
  if c.toNat < 0x100 then '\\' :: 'x' :: hexDigits 2 c.toNat
  else if c.toNat < 0x10000 then '\\' :: 'u' :: hexDigits 4 c.toNat
  else '\\' :: 'U' :: hexDigits 8 c.toNat

end ReversePolish
