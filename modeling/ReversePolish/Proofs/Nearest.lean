import Mathlib.Algebra.Order.Ring.Abs
import Mathlib.Algebra.Order.Ring.Int
import Mathlib.Tactic.Linarith
import Mathlib.Tactic.Ring
import Mathlib.Tactic.Zify
import ReversePolish.Proofs.Rounding

set_option autoImplicit false

/-! # Rounding goes to the nearest number

A quotient of quanta is compared with the numbers of the format in integers: how far it is from a
number of quanta is measured in units of its denominator. Rounding first goes to the nearest
multiple of a power of two. Every number of the format is such a multiple, or else it lies below
the quotient with one in between, so that no number is nearer, and of two that are equally near the
one with the even mantissa is taken. What is rounded past the largest number is exactly what lies
half a step above it or more. -/

namespace ReversePolish

/-! ## To a natural number -/

section Integers

variable (num : Nat) {den : Nat}

/-- The rounded quotient is off by at most one half, and if by one half, it is even. -/
theorem roundHalfEven_within (hden : 0 < den) :
    2 * (roundHalfEven num den * den) ≤ 2 * num + den ∧
      2 * num ≤ 2 * (roundHalfEven num den * den) + den ∧
      (2 * (roundHalfEven num den * den) = 2 * num + den ∨
        2 * num = 2 * (roundHalfEven num den * den) + den → roundHalfEven num den % 2 = 0) := by
  have hdiv : num / den * den + num % den = num := by
    rw [Nat.mul_comm]
    exact Nat.div_add_mod num den
  have hmod : num % den < den := Nat.mod_lt num hden
  unfold roundHalfEven
  dsimp only
  split
  · next h =>
    simp only [Bool.or_eq_true, decide_eq_true_eq, Bool.and_eq_true, beq_iff_eq] at h
    rw [Nat.add_mul, Nat.one_mul]
    omega
  · next h =>
    simp only [Bool.or_eq_true, decide_eq_true_eq, Bool.and_eq_true, beq_iff_eq] at h
    omega

/-- How far `num / den` is from an integer, in units of the denominator. -/
def distance (num den k : Nat) : Int :=
  |(num : Int) - k * den|

@[simp] theorem distance_zero : distance num den 0 = num := by
  simp [distance]

theorem two_mul_distance_roundHalfEven (hden : 0 < den) :
    2 * distance num den (roundHalfEven num den) ≤ den := by
  obtain ⟨hlow, hhigh, -⟩ := roundHalfEven_within num hden
  have h : |2 * ((num : Int) - roundHalfEven num den * den)| ≤ den := by
    rw [abs_le]
    constructor
    · push_cast [← Int.ofNat_le] at hlow
      linarith
    · push_cast [← Int.ofNat_le] at hhigh
      linarith
  rwa [abs_mul, abs_two] at h

theorem roundHalfEven_even (hden : 0 < den)
    (h : 2 * distance num den (roundHalfEven num den) = den) : roundHalfEven num den % 2 = 0 := by
  obtain ⟨-, -, heven⟩ := roundHalfEven_within num hden
  apply heven
  unfold distance at h
  rcases abs_cases ((num : Int) - roundHalfEven num den * den) with ⟨habs, -⟩ | ⟨habs, -⟩
  · right
    rw [habs] at h
    zify
    linarith
  · left
    rw [habs] at h
    zify
    linarith

/-- Two integers are at least one denominator apart. -/
theorem le_distance_add_distance {j k : Nat} (h : j ≠ k) :
    (den : Int) ≤ distance num den j + distance num den k := by
  have hgap : (1 : Int) ≤ |(k : Int) - j| := by
    apply Int.one_le_abs
    omega
  calc (den : Int) = 1 * den := (one_mul _).symm
    _ ≤ |(k : Int) - j| * den := mul_le_mul_of_nonneg_right hgap (Int.natCast_nonneg den)
    _ = |(k - j) * (den : Int)| := by rw [abs_mul, Nat.abs_cast]
    _ = |((num : Int) - j * den) - (num - k * den)| := by
      congr 1
      ring
    _ ≤ distance num den j + distance num den k := abs_sub _ _

/-- Below the quotient, the larger integer is the nearer. -/
theorem distance_lt_of_lt (hden : 0 < den) {j k : Nat} (hjk : j < k) (hk : k * den ≤ num) :
    distance num den k < distance num den j := by
  have hmul : j * den < k * den := Nat.mul_lt_mul_of_pos_right hjk hden
  zify at hk hmul
  unfold distance
  rw [abs_of_nonneg (by linarith), abs_of_nonneg (by linarith)]
  linarith

/-- Between two integers that are equally near, all are nearer. -/
theorem distance_lt_of_between (hden : 0 < den) {i j k : Nat} (hij : i < j) (hjk : j < k)
    (h : distance num den i = distance num den k) : distance num den j < distance num den i := by
  have hleft : i * den < j * den := Nat.mul_lt_mul_of_pos_right hij hden
  have hright : j * den < k * den := Nat.mul_lt_mul_of_pos_right hjk hden
  zify at hleft hright
  unfold distance at h ⊢
  -- the quotient is in the middle of the two
  rcases abs_eq_abs.1 h with hsame | hmiddle
  · linarith
  · rw [abs_of_nonneg (a := (num : Int) - i * den) (by linarith), abs_lt]
    constructor
    · linarith
    · linarith

/-- No integer is nearer than the rounded quotient, and if another is as near, this one is even. -/
theorem roundHalfEven_nearest (hden : 0 < den) (k : Nat) :
    distance num den (roundHalfEven num den) ≤ distance num den k ∧
      (k ≠ roundHalfEven num den →
        distance num den k = distance num den (roundHalfEven num den) →
          roundHalfEven num den % 2 = 0) := by
  have hhalf := two_mul_distance_roundHalfEven num hden
  by_cases hk : k = roundHalfEven num den
  · rw [hk]
    exact ⟨le_refl _, fun h => absurd rfl h⟩
  · have hgap : (den : Int) ≤ distance num den k + distance num den (roundHalfEven num den) :=
      le_distance_add_distance num hk
    constructor
    · linarith
    · intro _ heq
      exact roundHalfEven_even num hden (by linarith)

/-- Where rounding first reaches an even number: half a step below it, for a tie goes up to it. -/
theorem le_roundHalfEven_iff (hden : 0 < den) {c : Nat} (hc : c % 2 = 0) :
    c ≤ roundHalfEven num den ↔ 2 * (c * den) ≤ 2 * num + den := by
  obtain ⟨hlow, hhigh, heven⟩ := roundHalfEven_within num hden
  constructor
  · intro h
    have := Nat.mul_le_mul_right den h
    omega
  · intro h
    by_contra hlt
    have hle : (roundHalfEven num den + 1) * den ≤ c * den := Nat.mul_le_mul_right den (by omega)
    rw [Nat.add_mul, Nat.one_mul] at hle
    -- the bound is met exactly, so `c` is the odd number after an even one
    have htie : roundHalfEven num den % 2 = 0 := heven (.inr (by omega))
    have hle' : (roundHalfEven num den + 2) * den ≤ c * den := Nat.mul_le_mul_right den (by omega)
    rw [Nat.add_mul] at hle'
    omega

end Integers

namespace Binary64

/-! ## To a magnitude of the format -/

/-- The quotient `num / den` in the unit that it is rounded in, rounded. -/
def significandOf (num den : Nat) : Nat :=
  roundHalfEven num (den * 2 ^ exponentOf num den)

section Quanta

variable {num den : Nat}

theorem quotient_lt {e : Nat} (h : exponentOf num den < e) : num / den < 2 ^ 52 * 2 ^ e := by
  have hlog : (num / den).log2 + 1 ≤ 52 + e := by
    unfold exponentOf at h
    omega
  rw [← Nat.pow_add]
  exact Nat.lt_of_lt_of_le Nat.lt_log2_self (Nat.pow_le_pow_right (by decide) hlog)

theorem two_pow_le_quotient {e : Nat} (h : e < exponentOf num den) :
    2 ^ 52 * 2 ^ (e + 1) ≤ num / den := by
  have hlog : 52 + (e + 1) ≤ (num / den).log2 := by
    unfold exponentOf at h
    omega
  have hne : num / den ≠ 0 := by
    intro hzero
    rw [exponentOf, hzero] at h
    simp at h
  rw [← Nat.pow_add]
  exact Nat.le_trans (Nat.pow_le_pow_right (by decide) hlog) (Nat.log2_self_le hne)

theorem significandOf_le : significandOf num den ≤ 2 ^ 53 := by
  have hunit : num / (den * 2 ^ exponentOf num den) < 2 ^ 53 := by
    have h := quotient_lt (Nat.lt_succ_self (exponentOf num den))
    rw [← Nat.div_div_eq_div_mul, Nat.div_lt_iff_lt_mul (Nat.two_pow_pos _)]
    rw [Nat.pow_succ] at h
    omega
  exact Nat.le_trans (roundHalfEven_le _ _) hunit

theorem distance_mul_right (num den e k : Nat) :
    distance num den (k * 2 ^ e) = distance num (den * 2 ^ e) k := by
  unfold distance
  congr 2
  push_cast
  ring

/-- A magnitude of the format is a multiple of the unit, or it lies below all the numbers between
    which the quotient is rounded. -/
theorem dvd_quanta_or_lt (y : Finite) (e : Nat) :
    2 ^ e ∣ y.quanta ∨ 0 < e ∧ y.quanta < 2 ^ 52 * 2 ^ e := by
  rcases Nat.lt_or_ge y.exponent e with hlt | hge
  · right
    refine ⟨by omega, ?_⟩
    calc y.quanta < 2 ^ 53 * 2 ^ y.exponent :=
          Nat.mul_lt_mul_of_pos_right y.mantissa_lt (Nat.two_pow_pos _)
      _ = 2 ^ 52 * 2 ^ (y.exponent + 1) := by
          rw [Nat.pow_succ 2 y.exponent]
          omega
      _ ≤ 2 ^ 52 * 2 ^ e := Nat.mul_le_mul_left _ (Nat.pow_le_pow_right (by decide) hlt)
  · left
    exact Nat.dvd_mul_left_of_dvd (Nat.pow_dvd_pow 2 hge) _

/-- No magnitude of the format is nearer than the rounded quotient, and if another is as near, the
    significand is even. -/
theorem significandOf_nearest (num : Nat) (hden : 0 < den) (y : Finite) :
    distance num den (significandOf num den * 2 ^ exponentOf num den) ≤
        distance num den y.quanta ∧
      (y.quanta ≠ significandOf num den * 2 ^ exponentOf num den →
        distance num den y.quanta =
            distance num den (significandOf num den * 2 ^ exponentOf num den) →
          significandOf num den % 2 = 0) := by
  have hnearest :=
    roundHalfEven_nearest num (Nat.mul_pos hden (Nat.two_pow_pos (exponentOf num den)))
  rw [distance_mul_right]
  rcases dvd_quanta_or_lt y (exponentOf num den) with ⟨k, hk⟩ | ⟨he, hlt⟩
  · rw [hk, Nat.mul_comm _ k, distance_mul_right]
    refine ⟨(hnearest k).1, fun hne heq => (hnearest k).2 ?_ heq⟩
    rintro rfl
    exact hne rfl
  · -- the least full mantissa in this unit lies between the magnitude and the quotient
    have hbetween : 2 ^ 52 * 2 ^ exponentOf num den * den ≤ num := by
      have h := two_pow_le_quotient (Nat.sub_one_lt_of_lt he)
      rw [Nat.sub_one_add_one_eq_of_pos he] at h
      exact (Nat.le_div_iff_mul_le hden).1 h
    have hnearer := distance_lt_of_lt num hden hlt hbetween
    rw [distance_mul_right] at hnearer
    have hless := lt_of_le_of_lt (hnearest (2 ^ 52)).1 hnearer
    exact ⟨le_of_lt hless, fun _ heq => absurd heq (ne_of_gt hless)⟩

end Quanta

/-! ## Overflow -/

theorem pack_eq_finite {s : Bool} {m e : Nat} {h : e = 0 ∨ 2 ^ 52 ≤ m} (hm : m ≤ 2 ^ 53)
    {x : Finite} (hx : pack s m e h = finite x) :
    x.negative = s ∧ x.quanta = m * 2 ^ e ∧ (m % 2 = 0 → x.mantissa % 2 = 0) := by
  unfold pack at hx
  split at hx
  · split at hx
    · cases hx
      exact ⟨rfl, rfl, id⟩
    · cases hx
  · next hfull =>
    have hm : m = 2 ^ 53 := by omega
    split at hx
    · cases hx
      have heven : 2 ^ 52 % 2 = 0 := by decide
      refine ⟨rfl, ?_, fun _ => heven⟩
      show 2 ^ 52 * 2 ^ (e + 1) = m * 2 ^ e
      rw [hm, Nat.pow_succ 2 e]
      omega
    · cases hx

/-- The mantissa carries past the largest exponent, or the exponent is past it already. -/
theorem pack_eq_infinity_iff {s : Bool} {m e : Nat} {h : e = 0 ∨ 2 ^ 52 ≤ m} :
    pack s m e h = infinity s ↔ 2045 < e ∨ e = 2045 ∧ 2 ^ 53 ≤ m := by
  unfold pack
  split
  all_goals
    split
    · next he =>
      simp only [reduceCtorEq, false_iff]
      omega
    · next he =>
      simp only [true_iff]
      omega

theorem pack_eq_infinity_or (s : Bool) (m e : Nat) (h : e = 0 ∨ 2 ^ 52 ≤ m) :
    pack s m e h = infinity s ∨ ∃ x, pack s m e h = finite x := by
  unfold pack
  split
  all_goals
    split
    · exact .inr ⟨_, rfl⟩
    · exact .inl rfl

/-- What is rounded to infinity is what lies half a step above the largest number or more. -/
theorem ofQuanta_eq_infinity_iff {s : Bool} {num den : Nat} (hden : 0 < den) :
    ofQuanta s num den = infinity s ↔ 2 ^ 54 * (2 ^ 2045 * den) ≤ 2 * num + 2 ^ 2045 * den := by
  rw [ofQuanta, pack_eq_infinity_iff]
  -- nothing depends on what the largest exponent is
  generalize 2045 = largest
  have hunit : 0 < 2 ^ largest * den := Nat.mul_pos (Nat.two_pow_pos _) hden
  rcases Nat.lt_trichotomy (exponentOf num den) largest with he | he | he
  · have hlt := (Nat.div_lt_iff_lt_mul hden).1 (quotient_lt he)
    rw [Nat.mul_assoc] at hlt
    omega
  · have hcarry := le_roundHalfEven_iff num hunit (c := 2 ^ 53) (by decide)
    rw [he, Nat.mul_comm den, hcarry]
    omega
  · have hle := (Nat.le_div_iff_mul_le hden).1 (two_pow_le_quotient he)
    rw [Nat.pow_succ 2 largest, Nat.mul_assoc, Nat.mul_right_comm _ 2] at hle
    omega

/-! ## Magnitudes -/

/-- No magnitude of the format is nearer to `num / den` quanta than that of `x`, and if another is
    as near, the mantissa of `x` is even. -/
structure NearestQuanta (num den : Nat) (x : Finite) : Prop where
  le : ∀ y : Finite, distance num den x.quanta ≤ distance num den y.quanta
  even : ∀ y : Finite, y.quanta ≠ x.quanta →
    distance num den y.quanta = distance num den x.quanta → x.mantissa % 2 = 0

theorem nearestQuanta_of_ofQuanta {s : Bool} {num den : Nat} (hden : 0 < den) {x : Finite}
    (h : ofQuanta s num den = finite x) : x.negative = s ∧ NearestQuanta num den x := by
  obtain ⟨hs, hquanta, hmantissa⟩ := pack_eq_finite significandOf_le h
  have hnearest := significandOf_nearest num hden
  refine ⟨hs, ⟨?_, ?_⟩⟩
  · intro y
    rw [hquanta]
    exact (hnearest y).1
  · intro y hne heq
    rw [hquanta] at hne heq
    exact hmantissa ((hnearest y).2 hne heq)

@[simp] theorem Finite.quanta_zero (s : Bool) : (zero s).quanta = 0 :=
  Nat.zero_mul _

/-- The nearest magnitude is as near as zero. -/
theorem NearestQuanta.distance_le {num den : Nat} {x : Finite} (h : NearestQuanta num den x) :
    distance num den x.quanta ≤ num := by
  simpa using h.le (.zero false)

theorem NearestQuanta.even_of_distance_eq {num den : Nat} {x : Finite}
    (h : NearestQuanta num den x) (hx : x.quanta ≠ 0) (heq : distance num den x.quanta = num) :
    x.mantissa % 2 = 0 := by
  refine h.even (.zero false) ?_ ?_
  · simpa using hx.symm
  · simpa using heq.symm

/-- Numbers of one magnitude have one mantissa and one exponent. -/
theorem Finite.eq_of_quanta_eq {x y : Finite} (hs : x.negative = y.negative)
    (h : x.quanta = y.quanta) : x = y := by
  have he : x.exponent = y.exponent := by
    rw [← exponentOf_quanta x, ← exponentOf_quanta y, h]
  have hm : x.mantissa = y.mantissa := by
    rw [Finite.quanta, Finite.quanta, he] at h
    exact Nat.mul_right_cancel (Nat.two_pow_pos _) h
  obtain ⟨s, m, e, _, _, _⟩ := x
  obtain ⟨s', m', e', _, _, _⟩ := y
  cases hs
  cases hm
  cases he
  rfl

/-- The number after one with an even mantissa. -/
def Finite.next (x : Finite) (h : x.mantissa % 2 = 0) : Finite where
  negative := x.negative
  mantissa := x.mantissa + 1
  exponent := x.exponent
  mantissa_lt := by
    have := x.mantissa_lt
    omega
  exponent_le := x.exponent_le
  normal := x.normal.imp_right fun hm => by omega

/-- Between two magnitudes with even mantissas there is another. -/
theorem Finite.exists_between {x y : Finite} (hx : x.mantissa % 2 = 0) (hy : y.mantissa % 2 = 0)
    (h : x.quanta < y.quanta) : ∃ z : Finite, x.quanta < z.quanta ∧ z.quanta < y.quanta := by
  have hstep : (x.next hx).quanta = x.quanta + 2 ^ x.exponent := by
    rw [Finite.quanta, Finite.quanta, ← Nat.succ_mul]
    rfl
  have hpos := Nat.two_pow_pos x.exponent
  refine ⟨x.next hx, by omega, ?_⟩
  have hle : (x.next hx).quanta ≤ y.quanta := by
    rcases dvd_quanta_or_lt y x.exponent with ⟨k, hk⟩ | ⟨he, hlt⟩
    · rw [hk, Nat.mul_comm] at h ⊢
      have hk : x.mantissa < k := Nat.lt_of_mul_lt_mul_right h
      exact Nat.mul_le_mul_right _ hk
    · have hfull : 2 ^ 52 * 2 ^ x.exponent ≤ x.quanta :=
        Nat.mul_le_mul_right _ (x.normal.resolve_left (by omega))
      omega
  have hne : (x.next hx).quanta ≠ y.quanta := by
    intro heq
    have hnext : ({ x.next hx with negative := y.negative } : Finite) = y :=
      Finite.eq_of_quanta_eq rfl heq
    have hodd : (x.mantissa + 1) = y.mantissa := congrArg Finite.mantissa hnext
    omega
  omega

/-- Only one magnitude is nearest. -/
theorem NearestQuanta.quanta_unique {num den : Nat} (hden : 0 < den) {x y : Finite}
    (hx : NearestQuanta num den x) (hy : NearestQuanta num den y) : x.quanta = y.quanta := by
  have heq : distance num den x.quanta = distance num den y.quanta :=
    le_antisymm (hx.le y) (hy.le x)
  by_contra hne
  have hxeven := hx.even y (Ne.symm hne) heq.symm
  have hyeven := hy.even x hne heq
  rcases Nat.lt_or_gt_of_ne hne with hlt | hlt
  · obtain ⟨z, hxz, hzy⟩ := Finite.exists_between hxeven hyeven hlt
    exact not_lt_of_ge (hx.le z) (distance_lt_of_between num hden hxz hzy heq)
  · obtain ⟨z, hyz, hzx⟩ := Finite.exists_between hyeven hxeven hlt
    exact not_lt_of_ge (hy.le z) (distance_lt_of_between num hden hyz hzx heq.symm)

/-- A quotient below the bound is rounded to the nearest magnitude, with the sign it is given. -/
theorem ofQuanta_eq_finite_iff {s : Bool} {num den : Nat} (hden : 0 < den) {x : Finite} :
    ofQuanta s num den = finite x ↔
      2 * num + 2 ^ 2045 * den < 2 ^ 54 * (2 ^ 2045 * den) ∧ x.negative = s ∧
        NearestQuanta num den x := by
  rw [← Nat.not_le, ← ofQuanta_eq_infinity_iff (s := s) hden]
  constructor
  · intro h
    exact ⟨by rw [h]; exact nofun, nearestQuanta_of_ofQuanta hden h⟩
  · rintro ⟨hfinite, hs, hx⟩
    obtain hinf | ⟨y, hy⟩ := pack_eq_infinity_or s (significandOf num den)
      (exponentOf num den) (exponentOf_normal num den)
    · exact absurd hinf hfinite
    · obtain ⟨hys, hyn⟩ := nearestQuanta_of_ofQuanta hden hy
      rw [Finite.eq_of_quanta_eq (hs.trans hys.symm) (hx.quanta_unique hden hyn)]
      exact hy

end Binary64

end ReversePolish
