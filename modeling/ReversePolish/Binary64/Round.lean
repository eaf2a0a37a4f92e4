import ReversePolish.Binary64.Basic

set_option autoImplicit false

/-! # Rounding to binary64

Every number that is not given exactly comes from one rounding: an exact quotient of natural
numbers goes to the nearest number of the format, a tie to the even mantissa, and a magnitude
from `2 ^ 1024 - 2 ^ 970` on to infinity. A decimal `n * 10 ^ k` is such a quotient. -/

namespace ReversePolish

attribute [local instance] corePow

/-- The natural number nearest to `num / den`, the even one of two. -/
def roundHalfEven (num den : Nat) : Nat :=
  let q := num / den
  let r := num % den
  if den < 2 * r || (2 * r == den && q % 2 == 1) then q + 1 else q

theorem div_le_roundHalfEven (num den : Nat) : num / den ≤ roundHalfEven num den := by
  unfold roundHalfEven
  dsimp only
  split <;> omega

theorem roundHalfEven_le (num den : Nat) : roundHalfEven num den ≤ num / den + 1 := by
  unfold roundHalfEven
  dsimp only
  split <;> omega

namespace Binary64

/-! ## From mantissa and exponent -/

/-- The number `m * 2 ^ e` quanta, where `m` is a full mantissa, or `2 ^ 53` after rounding up;
    infinity when the exponent is out of range. -/
def pack (negative : Bool) (m e : Nat) (h : e = 0 ∨ 2 ^ (52 : Nat) ≤ m) : Binary64 :=
  -- rounding up can carry into a 54th bit, and then only the mantissa `2 ^ 53` is possible
  if hm : m < 2 ^ (53 : Nat) then
    if he : e ≤ 2045 then finite ⟨negative, m, e, hm, he, h⟩ else infinity negative
  else
    if he : e + 1 ≤ 2045 then
      finite ⟨negative, 2 ^ (52 : Nat), e + 1, by decide, he, .inr (Nat.le_refl _)⟩
    else infinity negative

/-- The exponent that the magnitude `num / den` quanta is rounded at. -/
def exponentOf (num den : Nat) : Nat :=
  (num / den).log2 - 52

theorem exponentOf_normal (num den : Nat) :
    exponentOf num den = 0 ∨
      2 ^ (52 : Nat) ≤ roundHalfEven num (den * 2 ^ exponentOf num den) := by
  by_cases h : (num / den).log2 ≤ 52
  · exact .inl (Nat.sub_eq_zero_of_le h)
  · right
    refine Nat.le_trans ?_ (div_le_roundHalfEven _ _)
    have hq : num / den ≠ 0 := by
      intro hz
      rw [hz] at h
      exact h (by decide)
    have hlow : 2 ^ (num / den).log2 ≤ num / den := Nat.log2_self_le hq
    have hsplit : (num / den).log2 = 52 + exponentOf num den := by
      unfold exponentOf
      omega
    rw [← Nat.div_div_eq_div_mul, Nat.le_div_iff_mul_le (Nat.two_pow_pos _), ← Nat.pow_add,
      ← hsplit]
    exact hlow

/-- The number nearest to `num / den` quanta, a tie to the even mantissa. -/
def ofQuanta (negative : Bool) (num den : Nat) : Binary64 :=
  pack negative (roundHalfEven num (den * 2 ^ exponentOf num den)) (exponentOf num den)
    (exponentOf_normal num den)

/-! ## From decimals -/

/-- The number nearest to `n * 10 ^ k`. Powers of ten far beyond the format are not computed:
    above `10 ^ 309` any positive magnitude overflows, and a magnitude below half a quantum
    rounds to zero. -/
def ofDecimal (negative : Bool) (n : Nat) : Int → Binary64
  | .ofNat k =>
    if n = 0 then zero negative
    -- `10 ^ 309` is past the largest finite number, so the power need not be computed
    else if 309 < k then infinity negative
    else ofQuanta negative (n * 10 ^ k * 2 ^ (1074 : Nat)) 1
  | .negSucc j =>
    if n = 0 then zero negative
    -- `n < 2 ^ (n.log2 + 1)` and `8 ^ (j + 1) ≤ 10 ^ (j + 1)`: less than half a quantum
    else if n.log2 + 1076 ≤ 3 * (j + 1) then zero negative
    else ofQuanta negative (n * 2 ^ (1074 : Nat)) (10 ^ (j + 1))

/-- The number nearest to an integer. -/
def ofInt (i : Int) : Binary64 :=
  ofDecimal (i < 0) i.natAbs 0

end Binary64

end ReversePolish
