import Mathlib.Algebra.Order.Field.Power
import Mathlib.Algebra.Order.Ring.Rat
import Mathlib.Data.Rat.Cast.Order
import Mathlib.Tactic.FieldSimp
import Mathlib.Tactic.Positivity
import ReversePolish.Proofs.Nearest

set_option autoImplicit false

/-! # Numbers as rationals

A finite number stands for a rational, and a decimal denotes one. The decimal is rounded to the
number whose value is nearest, of two that are equally near to the one with the even mantissa, and
there is only one such number of either sign. It keeps its sign when it is rounded to zero. A
decimal from `2 ^ 1024 - 2 ^ 970` on is rounded to infinity. -/

namespace ReversePolish

attribute [local instance] corePow

/-! ## Signs -/

/-- The rational of that magnitude with a sign, negative for `true`. -/
def withSign (negative : Bool) (q : ℚ) : ℚ :=
  if negative then -q else q

@[simp] theorem abs_withSign (s : Bool) (q : ℚ) : |withSign s q| = |q| := by
  cases s with
  | false => rfl
  | true => exact abs_neg q

theorem withSign_sub (s : Bool) (p q : ℚ) : withSign s (p - q) = withSign s p - withSign s q := by
  cases s with
  | false => rfl
  | true => exact neg_sub p q |>.trans (neg_sub_neg p q).symm

/-- Across the two signs, magnitudes add up. -/
theorem abs_withSign_sub_of_ne {s t : Bool} (h : t ≠ s) {p q : ℚ} (hp : 0 ≤ p) (hq : 0 ≤ q) :
    |withSign s p - withSign t q| = p + q := by
  have hopposite : withSign s p - withSign t q = withSign s (p + q) := by
    cases s with
    | false =>
      have ht : t = true := Bool.eq_true_of_not_eq_false h
      rw [ht]
      exact sub_neg_eq_add p q
    | true =>
      have ht : t = false := Bool.eq_false_of_not_eq_true h
      rw [ht]
      exact (neg_add' p q).symm
  rw [hopposite, abs_withSign, abs_of_nonneg (add_nonneg hp hq)]

namespace Binary64

/-! ## The value of a number -/

/-- The value of a finite number. -/
def Finite.toRat (x : Finite) : ℚ :=
  x.signedQuanta / 2 ^ 1074

theorem Finite.toRat_eq (x : Finite) :
    x.toRat = withSign x.negative (x.quanta / 2 ^ 1074) := by
  unfold toRat signedQuanta withSign
  split
  · push_cast
    exact neg_div _ _
  · rfl

theorem Finite.toRat_eq_zero {x : Finite} (h : x.quanta = 0) : x.toRat = 0 := by
  simp [x.toRat_eq, h, withSign]

/-- Each magnitude is there with both signs. -/
theorem Finite.exists_negative_eq (y : Finite) (s : Bool) :
    ∃ z : Finite, z.negative = s ∧ z.quanta = y.quanta :=
  ⟨{ y with negative := s }, rfl, rfl⟩

theorem Finite.abs_toRat (x : Finite) : |x.toRat| = x.quanta / 2 ^ 1074 := by
  rw [x.toRat_eq, abs_withSign, abs_of_nonneg (by positivity)]

theorem Finite.quanta_eq_of_toRat_eq {x y : Finite} (h : x.toRat = y.toRat) :
    x.quanta = y.quanta := by
  have hquanta : (x.quanta : ℚ) / 2 ^ 1074 = y.quanta / 2 ^ 1074 := by
    rw [← abs_toRat, ← abs_toRat, h]
  have hquantum : (2 : ℚ) ^ 1074 ≠ 0 := by positivity
  exact Nat.cast_inj.1 ((div_left_inj' hquantum).1 hquanta)

/-- No finite number is nearer to the rational than `x`, and if another one is as near, the
    mantissa of `x` is even. -/
structure IsNearest (q : ℚ) (x : Finite) : Prop where
  le : ∀ y : Finite, |q - x.toRat| ≤ |q - y.toRat|
  even : ∀ y : Finite, y.toRat ≠ x.toRat → |q - y.toRat| = |q - x.toRat| → x.mantissa % 2 = 0

/-! ## Distances -/

section Distances

variable {num den : Nat} {s : Bool} {x y : Finite}

theorem abs_sub_toRat_of_eq (hden : 0 < den) (hs : y.negative = s) :
    |withSign s (num / den / 2 ^ 1074) - y.toRat| * (den * 2 ^ 1074) =
      distance num den y.quanta := by
  have hden' : (0 : ℚ) < den := Nat.cast_pos.2 hden
  rw [y.toRat_eq, hs, ← withSign_sub, abs_withSign]
  have hquantum : (0 : ℚ) < 2 ^ 1074 := by positivity
  generalize (2 : ℚ) ^ 1074 = quantum at hquantum ⊢
  have hunit : 0 < den * quantum := mul_pos hden' hquantum
  calc |(num : ℚ) / den / quantum - y.quanta / quantum| * (den * quantum)
      = |((num : ℚ) / den / quantum - y.quanta / quantum) * (den * quantum)| := by
        rw [abs_mul, abs_of_pos hunit]
    _ = |(num : ℚ) - y.quanta * den| := by
        congr 1
        field_simp
    _ = distance num den y.quanta := by
        unfold distance
        push_cast
        rfl

theorem abs_sub_toRat_of_ne (hden : 0 < den) (hs : y.negative ≠ s) :
    |withSign s (num / den / 2 ^ 1074) - y.toRat| * (den * 2 ^ 1074) = num + y.quanta * den := by
  have hden' : (0 : ℚ) < den := Nat.cast_pos.2 hden
  rw [y.toRat_eq]
  have hquantum : (0 : ℚ) < 2 ^ 1074 := by positivity
  generalize (2 : ℚ) ^ 1074 = quantum at hquantum ⊢
  rw [abs_withSign_sub_of_ne hs (by positivity) (by positivity)]
  field_simp

theorem nearestQuanta_of_isNearest (hden : 0 < den) (hs : x.negative = s)
    (h : IsNearest (withSign s (num / den / 2 ^ 1074)) x) : NearestQuanta num den x := by
  have hunit : (0 : ℚ) < den * 2 ^ 1074 := mul_pos (Nat.cast_pos.2 hden) (by positivity)
  have hx : |withSign s (num / den / 2 ^ 1074) - x.toRat| * (den * 2 ^ 1074) =
      distance num den x.quanta := abs_sub_toRat_of_eq hden hs
  constructor
  · intro y
    obtain ⟨z, hz, hquanta⟩ := y.exists_negative_eq s
    have hle := h.le z
    rw [← mul_le_mul_iff_of_pos_right hunit, hx, abs_sub_toRat_of_eq hden hz, hquanta] at hle
    exact Int.cast_le.1 hle
  · intro y hne heq
    obtain ⟨z, hz, hquanta⟩ := y.exists_negative_eq s
    rw [← hquanta] at hne heq
    refine h.even z (fun hvalue => hne (Finite.quanta_eq_of_toRat_eq hvalue)) ?_
    apply mul_right_cancel₀ (ne_of_gt hunit)
    rw [hx, abs_sub_toRat_of_eq hden hz, heq]

/-- A number of the other sign is never nearer than zero. -/
theorem isNearest_of_nearestQuanta (hden : 0 < den) (hs : x.negative = s)
    (h : NearestQuanta num den x) : IsNearest (withSign s (num / den / 2 ^ 1074)) x := by
  have hunit : (0 : ℚ) < den * 2 ^ 1074 := mul_pos (Nat.cast_pos.2 hden) (by positivity)
  have hx : |withSign s (num / den / 2 ^ 1074) - x.toRat| * (den * 2 ^ 1074) =
      distance num den x.quanta := abs_sub_toRat_of_eq hden hs
  have hle : (distance num den x.quanta : ℚ) ≤ num := by exact_mod_cast h.distance_le
  constructor
  · intro y
    rw [← mul_le_mul_iff_of_pos_right hunit, hx]
    by_cases hy : y.negative = s
    · rw [abs_sub_toRat_of_eq hden hy]
      exact Int.cast_le.2 (h.le y)
    · rw [abs_sub_toRat_of_ne hden hy]
      exact le_add_of_le_of_nonneg hle (by positivity)
  · intro y hne heq
    rw [← mul_left_inj' (ne_of_gt hunit), hx] at heq
    by_cases hy : y.negative = s
    · rw [abs_sub_toRat_of_eq hden hy] at heq
      refine h.even y ?_ (Int.cast_inj.1 heq)
      intro hquanta
      exact hne (by rw [y.toRat_eq, x.toRat_eq, hquanta, hs, hy])
    · -- only zero is as near, and then `x` is not zero itself
      rw [abs_sub_toRat_of_ne hden hy] at heq
      have hyzero : y.quanta = 0 := by
        have hle : (y.quanta : ℚ) * den ≤ 0 := by linarith
        have hle : y.quanta * den ≤ 0 := by exact_mod_cast hle
        exact (Nat.mul_eq_zero.1 (Nat.le_zero.1 hle)).resolve_right (Nat.pos_iff_ne_zero.1 hden)
      refine h.even_of_distance_eq ?_ ?_
      · intro hxzero
        exact hne (by rw [Finite.toRat_eq_zero hyzero, Finite.toRat_eq_zero hxzero])
      · rw [hyzero, Nat.cast_zero, zero_mul, add_zero] at heq
        exact_mod_cast heq.symm

end Distances

/-! ## Decimals -/

theorem ten_zpow (k : Int) : (10 : ℚ) ^ k = 10 ^ k.toNat / 10 ^ (-k).toNat := by
  rcases Int.le_total 0 k with h | h
  · obtain ⟨n, rfl⟩ := Int.eq_ofNat_of_zero_le h
    simp
  · obtain ⟨n, hn⟩ := Int.eq_ofNat_of_zero_le (Int.neg_nonneg_of_nonpos h)
    obtain rfl : k = -n := by omega
    simp

/-- A decimal as the quotient of quanta that is rounded. -/
theorem mul_zpow_eq (n : Nat) (k : Int) :
    (n : ℚ) * 10 ^ k =
      ((n * 10 ^ k.toNat * 2 ^ (1074 : Nat) : Nat) : ℚ) / (10 ^ (-k).toNat : Nat) / 2 ^ 1074 := by
  have hquantum : (2 : ℚ) ^ 1074 ≠ 0 := by positivity
  rw [ten_zpow]
  simp only [Nat.cast_mul, Nat.cast_pow, Nat.cast_ofNat]
  generalize (2 : ℚ) ^ 1074 = quantum at hquantum ⊢
  field_simp

/-- The bound of the format, in quanta and as a rational. -/
theorem overflow_le_iff {num den : Nat} (hden : 0 < den) :
    2 ^ 54 * (2 ^ 2045 * den) ≤ 2 * num + 2 ^ 2045 * den ↔
      (2 ^ 1024 - 2 ^ 970 : ℚ) ≤ num / den / 2 ^ 1074 := by
  have hden' : (0 : ℚ) < den := Nat.cast_pos.2 hden
  have hquantum : (0 : ℚ) < 2 ^ 1074 := by positivity
  have hsplit : (2 : ℚ) ^ 1024 = 2 ^ 54 * 2 ^ 970 := pow_add 2 54 970
  have hsplit' : (2 : ℚ) ^ 2045 = 2 * 2 ^ 970 * 2 ^ 1074 := by
    rw [← pow_succ', ← pow_add]
  rw [← @Nat.cast_le ℚ]
  simp only [Nat.cast_add, Nat.cast_mul, Nat.cast_pow, Nat.cast_ofNat]
  rw [le_div_iff₀ hquantum, le_div_iff₀ hden', hsplit, hsplit']
  generalize (2 : ℚ) ^ 1074 = quantum
  generalize (2 : ℚ) ^ 970 = step
  constructor
  all_goals
    intro h
    linarith

/-- A decimal below the bound is rounded to the number with its sign that is nearest to it. -/
theorem ofDecimal_eq_finite_iff {s : Bool} {n : Nat} {k : Int} {x : Finite} :
    ofDecimal s n k = finite x ↔
      (n : ℚ) * 10 ^ k < 2 ^ 1024 - 2 ^ 970 ∧ x.negative = s ∧
        IsNearest (withSign s (n * 10 ^ k)) x := by
  have hden : 0 < 10 ^ (-k).toNat := Nat.pow_pos (by decide)
  rw [ofDecimal_eq_ofQuanta, ofQuanta_eq_finite_iff hden, ← Nat.not_le, overflow_le_iff hden,
    ← mul_zpow_eq, not_le, mul_zpow_eq]
  refine and_congr_right fun _ => and_congr_right fun hs => ?_
  exact ⟨isNearest_of_nearestQuanta hden hs, nearestQuanta_of_isNearest hden hs⟩

/-- A decimal that is not rounded to a finite number is rounded to infinity. -/
theorem ofDecimal_eq_infinity_iff {s : Bool} {n : Nat} {k : Int} :
    ofDecimal s n k = infinity s ↔ 2 ^ 1024 - 2 ^ 970 ≤ (n : ℚ) * 10 ^ k := by
  have hden : 0 < 10 ^ (-k).toNat := Nat.pow_pos (by decide)
  rw [ofDecimal_eq_ofQuanta, ofQuanta_eq_infinity_iff hden, overflow_le_iff hden, ← mul_zpow_eq]

end Binary64

end ReversePolish
