import ReversePolish.Binary64.Round

set_option autoImplicit false

/-! # Laws of rounding

Rounding looks only at the quotient it is given: numerator and denominator can be multiplied by a
common factor. A quotient that is a number of the format is rounded to this number. What is at
most half a quantum goes to zero and what is past the largest number to infinity, and so the
short cuts for decimals that are far out of range change nothing: every decimal is rounded as one
quotient, and two ways of writing it have the same number. -/

namespace ReversePolish

attribute [local instance] corePow

/-! ## To a natural number -/

theorem roundHalfEven_mul_right (num den : Nat) {c : Nat} (hc : 0 < c) :
    roundHalfEven (num * c) (den * c) = roundHalfEven num den := by
  have hlt : den * c < 2 * (num % den * c) ↔ den < 2 * (num % den) := by
    rw [← Nat.mul_assoc]
    exact Nat.mul_lt_mul_right hc
  have heq : 2 * (num % den * c) = den * c ↔ 2 * (num % den) = den := by
    rw [← Nat.mul_assoc]
    exact Nat.mul_right_cancel_iff hc
  unfold roundHalfEven
  simp only [Nat.mul_div_mul_right _ _ hc, Nat.mul_mod_mul_right, Bool.or_eq_true,
    decide_eq_true_eq, Bool.and_eq_true, beq_iff_eq, hlt, heq]

theorem roundHalfEven_mul_self (q : Nat) {den : Nat} (hden : 0 < den) :
    roundHalfEven (q * den) den = q := by
  unfold roundHalfEven
  simp only [Nat.mul_div_cancel _ hden, Nat.mul_mod_left]
  rw [if_neg]
  simp only [Bool.or_eq_true, decide_eq_true_eq, Bool.and_eq_true, beq_iff_eq]
  omega

theorem roundHalfEven_eq_zero {num den : Nat} (h : 2 * num ≤ den) (hden : 0 < den) :
    roundHalfEven num den = 0 := by
  have hlt : num < den := by omega
  unfold roundHalfEven
  simp only [Nat.div_eq_of_lt hlt, Nat.mod_eq_of_lt hlt]
  rw [if_neg]
  simp only [Bool.or_eq_true, decide_eq_true_eq, Bool.and_eq_true, beq_iff_eq]
  omega

namespace Binary64

/-! ## To a number of the format -/

theorem pack_congr (s : Bool) {m m' e e' : Nat} (hm : m = m') (he : e = e')
    (h : e = 0 ∨ 2 ^ (52 : Nat) ≤ m) (h' : e' = 0 ∨ 2 ^ (52 : Nat) ≤ m') :
    pack s m e h = pack s m' e' h' := by
  subst hm
  subst he
  rfl

theorem ofQuanta_mul_right (s : Bool) (num den : Nat) {c : Nat} (hc : 0 < c) :
    ofQuanta s (num * c) (den * c) = ofQuanta s num den := by
  have he : exponentOf (num * c) (den * c) = exponentOf num den := by
    rw [exponentOf, exponentOf, Nat.mul_div_mul_right _ _ hc]
  refine pack_congr s ?_ he _ _
  rw [he, Nat.mul_right_comm, roundHalfEven_mul_right _ _ hc]

/-- Equal quotients are rounded alike. -/
theorem ofQuanta_eq_of_mul_eq (s : Bool) {num den num' den' : Nat} (hden : 0 < den)
    (hden' : 0 < den') (h : num * den' = num' * den) :
    ofQuanta s num den = ofQuanta s num' den' := by
  calc ofQuanta s num den = ofQuanta s (num * den') (den * den') :=
        (ofQuanta_mul_right s num den hden').symm
    _ = ofQuanta s (num' * den) (den' * den) := by rw [h, Nat.mul_comm den den']
    _ = ofQuanta s num' den' := ofQuanta_mul_right s num' den' hden

theorem pack_of_lt (s : Bool) {m e : Nat} (hm : m < 2 ^ (53 : Nat)) (he : e ≤ 2045)
    (h : e = 0 ∨ 2 ^ (52 : Nat) ≤ m) : pack s m e h = finite ⟨s, m, e, hm, he, h⟩ := by
  rw [pack, dif_pos hm, dif_pos he]

theorem pack_of_gt (s : Bool) {m e : Nat} (he : 2045 < e) (h : e = 0 ∨ 2 ^ (52 : Nat) ≤ m) :
    pack s m e h = infinity s := by
  have hnot : ¬ e ≤ 2045 := by omega
  have hnot' : ¬ e + 1 ≤ 2045 := by omega
  by_cases hm : m < 2 ^ (53 : Nat)
  · rw [pack, dif_pos hm, dif_neg hnot]
  · rw [pack, dif_neg hm, dif_neg hnot']

/-- The exponent of a magnitude of the format is its own. -/
theorem exponentOf_quanta (x : Finite) : exponentOf x.quanta 1 = x.exponent := by
  rw [exponentOf, Nat.div_one, Finite.quanta]
  have hm := x.mantissa_lt
  rcases x.normal with he | hnormal
  · rw [he, Nat.pow_zero, Nat.mul_one]
    by_cases hz : x.mantissa = 0
    · rw [hz]
      rfl
    · have := (Nat.log2_lt hz).2 hm
      omega
  · have hlow : 2 ^ (52 + x.exponent) ≤ x.mantissa * 2 ^ x.exponent := by
      rw [Nat.pow_add]
      exact Nat.mul_le_mul_right _ hnormal
    have hhigh : x.mantissa * 2 ^ x.exponent < 2 ^ (52 + x.exponent + 1) := by
      rw [Nat.add_right_comm, Nat.pow_add]
      exact Nat.mul_lt_mul_of_pos_right hm (Nat.two_pow_pos _)
    have hne : x.mantissa * 2 ^ x.exponent ≠ 0 := by
      have := Nat.two_pow_pos (52 + x.exponent)
      omega
    have h₁ := (Nat.le_log2 hne).2 hlow
    have h₂ := (Nat.log2_lt hne).2 hhigh
    omega

/-- A quotient that is a number of the format is not changed. -/
theorem ofQuanta_quanta (x : Finite) {den : Nat} (hden : 0 < den) :
    ofQuanta x.negative (x.quanta * den) den = finite x := by
  have hone : ofQuanta x.negative (x.quanta * den) den = ofQuanta x.negative x.quanta 1 :=
    ofQuanta_eq_of_mul_eq _ hden Nat.one_pos (Nat.mul_one _)
  have he := exponentOf_quanta x
  have hm : roundHalfEven x.quanta (1 * 2 ^ exponentOf x.quanta 1) = x.mantissa := by
    rw [he, Nat.one_mul, Finite.quanta, roundHalfEven_mul_self _ (Nat.two_pow_pos _)]
  rw [hone, ofQuanta, pack_congr _ hm he _ x.normal, pack_of_lt _ x.mantissa_lt x.exponent_le]

/-- Half a quantum and less is rounded to zero. -/
theorem ofQuanta_eq_zero (s : Bool) {num den : Nat} (h : 2 * num ≤ den) (hden : 0 < den) :
    ofQuanta s num den = zero s := by
  have he : exponentOf num den = 0 := by
    have hlt : num < den := by omega
    rw [exponentOf, Nat.div_eq_of_lt hlt]
    rfl
  have hm : roundHalfEven num (den * 2 ^ exponentOf num den) = 0 := by
    rw [he, Nat.pow_zero, Nat.mul_one, roundHalfEven_eq_zero h hden]
  rw [ofQuanta, pack_congr s hm he _ (.inl rfl), pack_of_lt s (by decide) (by decide)]
  rfl

theorem ofQuanta_zero (s : Bool) {den : Nat} (hden : 0 < den) : ofQuanta s 0 den = zero s :=
  ofQuanta_eq_zero s (Nat.zero_le _) hden

/-- A magnitude of `2 ^ 1024` and more, that is `2 ^ 2098` quanta, is rounded to infinity. -/
theorem ofQuanta_eq_infinity (s : Bool) {n a b : Nat} (hab : 2098 ≤ a + b) (h : 2 ^ a ≤ n) :
    ofQuanta s (n * 2 ^ b) 1 = infinity s := by
  have hlow : 2 ^ (a + b) ≤ n * 2 ^ b := by
    rw [Nat.pow_add]
    exact Nat.mul_le_mul_right _ h
  have hne : n * 2 ^ b ≠ 0 := by
    have := Nat.two_pow_pos (a + b)
    omega
  have hlog : a + b ≤ (n * 2 ^ b).log2 := (Nat.le_log2 hne).2 hlow
  have he : 2045 < exponentOf (n * 2 ^ b) 1 := by
    rw [exponentOf, Nat.div_one]
    omega
  rw [ofQuanta, pack_of_gt s he]

/-! ## From decimals -/

@[simp] theorem ofDecimal_zero (s : Bool) (k : Int) : ofDecimal s 0 k = zero s := by
  cases k with
  | ofNat k =>
    unfold ofDecimal
    exact if_pos rfl
  | negSucc j =>
    unfold ofDecimal
    exact if_pos rfl

/-- Every decimal is rounded as one quotient. -/
theorem ofDecimal_eq_ofQuanta (s : Bool) (n : Nat) (k : Int) :
    ofDecimal s n k = ofQuanta s (n * 10 ^ k.toNat * 2 ^ (1074 : Nat)) (10 ^ (-k).toNat) := by
  have hpos : ∀ j : Nat, 0 < 10 ^ j := fun j => Nat.pow_pos (by decide)
  by_cases hn : n = 0
  · simp only [hn, Nat.zero_mul, ofDecimal_zero, ofQuanta_zero s (hpos _)]
  cases k with
  | ofNat k =>
    have hup : (Int.ofNat k).toNat = k := rfl
    have hdown : (-Int.ofNat k).toNat = 0 := by simp
    rw [hup, hdown, ofDecimal, if_neg hn, Nat.pow_zero]
    split
    · next hk =>
      -- the exact quotient is past the largest number
      have hbig : 2 ^ (1024 : Nat) ≤ n * 10 ^ k := by
        calc 2 ^ (1024 : Nat) ≤ 10 ^ (309 : Nat) := by decide +kernel
          _ ≤ 10 ^ k := Nat.pow_le_pow_right (by decide) (Nat.le_of_lt hk)
          _ ≤ n * 10 ^ k := Nat.le_mul_of_pos_left _ (Nat.pos_of_ne_zero hn)
      exact (ofQuanta_eq_infinity s (b := 1074) (by decide) hbig).symm
    · rfl
  | negSucc j =>
    have hup : (Int.negSucc j).toNat = 0 := rfl
    have hdown : (-Int.negSucc j).toNat = j + 1 := rfl
    rw [hup, hdown, ofDecimal, if_neg hn, Nat.pow_zero, Nat.mul_one]
    split
    · next hk =>
      -- the exact quotient is at most half a quantum
      refine (ofQuanta_eq_zero s ?_ (hpos _)).symm
      have hlt : n ≤ 2 ^ (n.log2 + 1) := Nat.le_of_lt Nat.lt_log2_self
      have hdouble : ∀ i, 2 * (n * 2 ^ i) ≤ 2 ^ (n.log2 + 1 + (i + 1)) := by
        intro i
        rw [Nat.pow_add, Nat.pow_succ 2 i, Nat.mul_left_comm, Nat.mul_comm 2]
        exact Nat.mul_le_mul_right _ hlt
      calc 2 * (n * 2 ^ (1074 : Nat)) ≤ 2 ^ (n.log2 + 1076) := hdouble 1074
        _ ≤ 2 ^ (3 * (j + 1)) := Nat.pow_le_pow_right (by decide) hk
        _ = 8 ^ (j + 1) := Nat.pow_mul 2 3 (j + 1)
        _ ≤ 10 ^ (j + 1) := Nat.pow_le_pow_left (by decide) _
    · rfl

/-- Zeros at the end of the digits can be moved to the exponent. -/
theorem ofDecimal_mul_pow (s : Bool) (n j : Nat) (k : Int) :
    ofDecimal s (n * 10 ^ j) k = ofDecimal s n (k + j) := by
  rw [ofDecimal_eq_ofQuanta, ofDecimal_eq_ofQuanta]
  refine ofQuanta_eq_of_mul_eq s (Nat.pow_pos (by decide)) (Nat.pow_pos (by decide)) ?_
  generalize 2 ^ (1074 : Nat) = quantum
  have hexp : j + k.toNat + (-(k + j)).toNat = (k + j).toNat + (-k).toNat := by omega
  calc n * 10 ^ j * 10 ^ k.toNat * quantum * 10 ^ (-(k + j)).toNat
      = n * 10 ^ (j + k.toNat + (-(k + j)).toNat) * quantum := by
        rw [Nat.pow_add, Nat.pow_add]
        ac_rfl
    _ = n * 10 ^ (k + j).toNat * quantum * 10 ^ (-k).toNat := by
        rw [hexp, Nat.pow_add]
        ac_rfl

end Binary64

end ReversePolish
