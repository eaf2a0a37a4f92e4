import ReversePolish.Binary64.Basic
import ReversePolish.Text.CodePoint

set_option autoImplicit false

/-! # Bit patterns of binary64

The interchange format: a sign bit, eleven bits of exponent, 52 bits of fraction. Since the
mantissa of the lowest exponent may be full or not, the pattern of a finite magnitude is its
exponent times `2 ^ 52` plus its mantissa. A pattern is written in sixteen hexadecimal digits. -/

namespace ReversePolish

attribute [local instance] corePow

namespace Binary64

/-- The sign bit. -/
def signBit (negative : Bool) : Nat :=
  if negative then 2 ^ (63 : Nat) else 0

/-- The bit pattern; the quiet pattern for NaN. -/
def toBits : Binary64 → Nat
  | nan => 0x7ff8000000000000
  | infinity s => signBit s + 2047 * 2 ^ (52 : Nat)
  | finite x => signBit x.negative + x.exponent * 2 ^ (52 : Nat) + x.mantissa

/-- The number of a bit pattern. -/
def ofBits (bits : Nat) : Binary64 :=
  let negative := bits / 2 ^ (63 : Nat) % 2 == 1
  let e := bits / 2 ^ (52 : Nat) % 2 ^ (11 : Nat)
  let f := bits % 2 ^ (52 : Nat)
  have hf : f < 2 ^ (52 : Nat) := Nat.mod_lt _ (by decide)
  if he : e = 2047 then
    if f = 0 then infinity negative else nan
  -- the lowest exponent is written 0 without the leading bit of the mantissa, and 1 with it
  else if e = 0 then
    finite ⟨negative, f, 0, by omega, (Finite.zero negative).exponent_le, .inl rfl⟩
  else
    have h : e < 2 ^ (11 : Nat) := Nat.mod_lt _ (by decide)
    finite ⟨negative, f + 2 ^ (52 : Nat), e - 1, by omega, by omega, .inr (by omega)⟩

/-! ## Hexadecimal text -/

/-- The value of a lower-case hexadecimal digit. -/
def hexDigitValue? (c : Char) : Option Nat :=
  if '0' ≤ c && c ≤ '9' then some (c.toNat - 48)
  else if 'a' ≤ c && c ≤ 'f' then some (c.toNat - 87)
  else none

/-- The bit pattern in hexadecimal. -/
def toHex (x : Binary64) : String :=
  String.ofList (hexDigits 16 x.toBits)

/-- The number of sixteen hexadecimal digits. -/
def ofHex? (s : String) : Option Binary64 :=
  if s.length = 16 then
    (s.toList.mapM hexDigitValue?).map fun ds => ofBits (ds.foldl (16 * · + ·) 0)
  else none

end Binary64

end ReversePolish
