import ReversePolish.Proofs.LiteralValue

set_option autoImplicit false

/-! # The canonical form of a number

A number that is whole is written with all its digits, a point and one zero, and no other number is
written so: a literal that ends in a point and one zero denotes an integer, and what an integer is
rounded to is whole. From `2 ^ 52` on the format has whole numbers only, so the shortest decimal of
any other number lies below `10 ^ 16`, and where its text has an exponent, it is negative. -/

namespace ReversePolish

attribute [local instance] corePow

namespace Binary64

/-! ## Whole numbers -/

theorem Finite.isWhole_iff_dvd {x : Finite} : x.isWhole = true ↔ 2 ^ (1074 : Nat) ∣ x.quanta := by
  rw [isWhole, beq_iff_eq, Nat.dvd_iff_mod_eq_zero]

theorem Finite.quanta_eq_mul_iff {x : Finite} {n : Nat} :
    x.quanta = n * 2 ^ (1074 : Nat) ↔ |x.toRat| = n := by
  have hquantum : (2 : ℚ) ^ 1074 ≠ 0 := by positivity
  rw [abs_toRat, div_eq_iff hquantum, ← @Nat.cast_inj ℚ]
  simp only [Nat.cast_mul, Nat.cast_pow, Nat.cast_ofNat]

theorem exists_int_eq_iff {q : ℚ} : (∃ z : ℤ, q = z) ↔ ∃ n : Nat, |q| = n := by
  constructor
  · rintro ⟨z, rfl⟩
    exact ⟨z.natAbs, by rw [Nat.cast_natAbs, Int.cast_abs]⟩
  · rintro ⟨n, hn⟩
    rcases abs_choice q with hq | hq
    · exact ⟨n, by rw [Int.cast_natCast, ← hn, hq]⟩
    · exact ⟨-n, by rw [Int.cast_neg, Int.cast_natCast, ← hn, hq, neg_neg]⟩

theorem Finite.isWhole_iff {x : Finite} : x.isWhole = true ↔ ∃ z : ℤ, x.toRat = z := by
  rw [isWhole_iff_dvd, dvd_iff_exists_eq_mul_left, exists_int_eq_iff]
  exact exists_congr fun n => quanta_eq_mul_iff

/-! ## Rounding to whole numbers -/

section Rounding

variable {s : Bool} {num den k : Nat} {x : Finite}

theorem two_pow_dvd_of_le_exponentOf (h : ofQuanta s num den = finite x)
    (hk : k ≤ exponentOf num den) : 2 ^ k ∣ x.quanta := by
  obtain ⟨-, hquanta, -⟩ := pack_eq_finite significandOf_le h
  rw [hquanta]
  exact Nat.dvd_mul_left_of_dvd (Nat.pow_dvd_pow 2 hk) _

/-- A magnitude with 53 bits above a power of two is rounded to a multiple of it. -/
theorem two_pow_dvd_of_le (hden : 0 < den) (h : ofQuanta s num den = finite x)
    (hle : 2 ^ 52 * 2 ^ k * den ≤ num) : 2 ^ k ∣ x.quanta := by
  refine two_pow_dvd_of_le_exponentOf h (Nat.le_of_not_lt fun hlt => ?_)
  have hquotient := (Nat.le_div_iff_mul_le hden).2 hle
  exact Nat.not_lt_of_le hquotient (quotient_lt hlt)

/-- A multiple of a power of two is rounded to one. -/
theorem two_pow_dvd_of_dvd (hden : 0 < den) (h : ofQuanta s num den = finite x)
    (hdvd : den * 2 ^ k ∣ num) : 2 ^ k ∣ x.quanta := by
  rcases Nat.lt_or_ge (exponentOf num den) k with hlt | hge
  · -- the unit of the rounding divides the magnitude, which is not changed
    obtain ⟨-, hquanta, -⟩ := pack_eq_finite significandOf_le h
    obtain ⟨n, hn⟩ := hdvd
    rw [significandOf] at hquanta
    generalize exponentOf num den = e at hlt hquanta
    have hpow : 2 ^ k = 2 ^ (k - e) * 2 ^ e := by
      rw [← Nat.pow_add]
      congr 1
      omega
    have hnum : num = n * 2 ^ (k - e) * (den * 2 ^ e) := by
      rw [hn, hpow]
      ring
    rw [hquanta, hnum, roundHalfEven_mul_self _ (Nat.mul_pos hden (Nat.two_pow_pos e)),
      Nat.mul_assoc, ← hpow]
    exact Nat.dvd_mul_left _ _
  · exact two_pow_dvd_of_le_exponentOf h hge

end Rounding

section Decimals

variable {s : Bool} {n : Nat} {k : Int} {x : Finite}

theorem Finite.isWhole_of_ofDecimal (h : ofDecimal s n k = finite x) {N : Nat}
    (hN : (n : ℚ) * 10 ^ k = N) : x.isWhole = true := by
  have hden : 0 < 10 ^ (-k).toNat := Nat.pow_pos (by decide)
  have hden' : (0 : ℚ) < (10 ^ (-k).toNat : Nat) := Nat.cast_pos.2 hden
  have hquantum : (2 : ℚ) ^ 1074 ≠ 0 := by positivity
  rw [ofDecimal_eq_ofQuanta] at h
  rw [mul_zpow_eq, div_eq_iff hquantum, div_eq_iff (ne_of_gt hden')] at hN
  rw [isWhole_iff_dvd]
  refine two_pow_dvd_of_dvd hden h ⟨N, ?_⟩
  apply @Nat.cast_injective ℚ
  rw [hN]
  simp only [Nat.cast_mul, Nat.cast_pow, Nat.cast_ofNat]
  generalize (2 : ℚ) ^ 1074 = quantum
  ring

theorem Finite.isWhole_of_le_ofDecimal (h : ofDecimal s n k = finite x)
    (hle : 2 ^ 52 * 10 ^ (-k).toNat ≤ n * 10 ^ k.toNat) : x.isWhole = true := by
  rw [ofDecimal_eq_ofQuanta] at h
  rw [isWhole_iff_dvd]
  refine two_pow_dvd_of_le (Nat.pow_pos (by decide)) h ?_
  rw [Nat.mul_right_comm]
  exact Nat.mul_le_mul_right _ hle

end Decimals

end Binary64

/-! ## A point and one zero -/

namespace DecimalLiteral

theorem eq_zero_of_suffix {front fs : List Char} (h : ['.', '0'] <:+ front ++ '.' :: fs)
    (hfs : '.' ∉ fs) : fs = ['0'] := by
  rcases List.suffix_or_suffix_of_suffix h (List.suffix_append front ('.' :: fs)) with h | h
  · rcases List.suffix_cons_iff.1 h with h | h
    · exact (List.cons.inj h).2.symm
    · exact absurd (h.subset List.mem_cons_self) hfs
  · rcases List.suffix_cons_iff.1 h with h | h
    · exact (List.cons.inj h).2
    · exact absurd (h.subset List.mem_cons_self) (by decide)

theorem point_not_mem_of_isDigit {ds : List Char} (h : ∀ c ∈ ds, c.isDigit = true) : '.' ∉ ds := by
  intro hmem
  exact absurd (h '.' hmem) (by decide)

theorem WritesSign.point_not_mem {sign : List Char} {negative : Bool}
    (h : WritesSign sign negative) : '.' ∉ sign := by
  cases h <;> decide

/-- A literal that ends so denotes an integer. -/
theorem Writes.exists_natCast_eq {cs : List Char} {negative : Bool} {q : ℚ}
    (h : Writes cs negative q) (hend : ['.', '0'] <:+ cs) : ∃ n : Nat, |q| = n := by
  obtain @⟨sign, mantissa, exponent, ws, fs, _, e, hsign, hmantissa, hexponent⟩ := h
  have hsign' := hsign.point_not_mem
  cases hexponent with
  | @present c esign ds _ hletter hesign hds =>
    -- the exponent has two characters or more, and none of them is a point
    obtain ⟨hne, hds⟩ := Decimal.isNumeral_iff.1 hds
    have hpoint : '.' ∉ c :: (esign ++ ds) := by
      rw [List.mem_cons, List.mem_append, not_or, not_or]
      refine ⟨?_, hesign.point_not_mem, point_not_mem_of_isDigit hds⟩
      rintro rfl
      exact absurd hletter (by decide)
    have hlength : ['.', '0'].length ≤ (c :: (esign ++ ds)).length := by
      have hpos := List.length_pos_iff.2 hne
      simp only [List.length_cons, List.length_append, List.length_nil]
      omega
    rw [← List.append_assoc] at hend
    have hsuffix := List.suffix_of_suffix_length_le hend (List.suffix_append _ _) hlength
    exact absurd (hsuffix.subset List.mem_cons_self) hpoint
  | absent =>
    rw [List.append_nil] at hend
    have hvalue : fs = ['0'] → |withSign negative
        (((Decimal.value ws : ℚ) + Decimal.value fs / 10 ^ fs.length) * 10 ^ (0 : ℤ))| =
          Decimal.value ws := by
      rintro rfl
      have hzero : Decimal.value ['0'] = 0 := rfl
      rw [abs_withSign, hzero, Nat.cast_zero, zero_div, add_zero, zpow_zero, mul_one, Nat.abs_cast]
    refine ⟨Decimal.value ws, hvalue ?_⟩
    cases hmantissa with
    | whole hws =>
      have hmem := hend.subset List.mem_cons_self
      exact absurd hmem (List.not_mem_append hsign'
        (point_not_mem_of_isDigit (Decimal.isNumeral_iff.1 hws).2))
    | point hws hfs =>
      rw [← List.append_assoc] at hend
      exact eq_zero_of_suffix hend (point_not_mem_of_isDigit hfs)
    | fraction hfs =>
      exact eq_zero_of_suffix hend (point_not_mem_of_isDigit (Decimal.isNumeral_iff.1 hfs).2)

end DecimalLiteral

namespace Binary64

open DecimalLiteral (Writes)

/-- The text of a number denotes a rational that is rounded to it. -/
theorem Finite.exists_writes_chars (x : Finite) :
    ∃ l : DecimalLiteral, l.number = finite x ∧ Writes x.chars x.negative l.toRat := by
  obtain ⟨l, hl, hnumber⟩ := Option.map_eq_some_iff.1 x.read?_chars
  have hs := (DecimalLiteral.number_eq_finite_iff.1 hnumber).2.1
  exact ⟨l, hnumber, hs ▸ DecimalLiteral.writes_of_read? hl⟩

theorem Finite.isWhole_of_suffix {x : Finite} (h : ['.', '0'] <:+ x.chars) :
    x.isWhole = true := by
  obtain ⟨l, hnumber, hwrites⟩ := x.exists_writes_chars
  obtain ⟨n, hn⟩ := hwrites.exists_natCast_eq h
  rw [DecimalLiteral.abs_toRat] at hn
  exact isWhole_of_ofDecimal hnumber hn

theorem Finite.suffix_of_isWhole {x : Finite} (h : x.isWhole = true) :
    ['.', '0'] <:+ x.chars := by
  rw [chars, if_pos h, ← List.append_assoc]
  exact List.suffix_append _ _

/-! ## Exponents -/

/-- Digits, points and signs, none of which starts an exponent. -/
def isPlain (c : Char) : Bool :=
  c != 'e' && c != 'E'

theorem isPlain_of_isDigit {c : Char} (h : c.isDigit = true) : isPlain c = true := by
  cases hc : isPlain c with
  | true => rfl
  | false =>
    rw [isPlain, Bool.and_eq_false_iff, bne_eq_false_iff_eq, bne_eq_false_iff_eq] at hc
    rcases hc with rfl | rfl <;> exact absurd h (by decide)

/-- The only exponent of a text is found wherever its letter stands. -/
theorem eq_of_append_letter {front rest mantissa exponent : List Char} {c : Char}
    (h : front ++ c :: rest = mantissa ++ 'e' :: exponent) (hc : isPlain c = false)
    (hmantissa : ∀ c ∈ mantissa, isPlain c = true) (hexponent : ∀ c ∈ exponent, isPlain c = true) :
    rest = exponent := by
  have hnot : ∀ cs : List Char, (∀ c ∈ cs, isPlain c = true) → c ∉ cs := by
    intro cs hcs hmem
    rw [hcs c hmem] at hc
    cases hc
  rcases List.append_eq_append_iff.1 h with ⟨as, hm, hrest⟩ | ⟨bs, hf, hrest⟩
  · cases as with
    | nil => exact (List.cons.inj hrest).2
    | cons a as =>
      obtain ⟨rfl, -⟩ := List.cons.inj hrest
      refine absurd ?_ (hnot mantissa hmantissa)
      rw [hm]
      exact List.mem_append_right _ List.mem_cons_self
  · cases bs with
    | nil => exact (List.cons.inj hrest).2.symm
    | cons b bs =>
      refine absurd ?_ (hnot exponent hexponent)
      rw [(List.cons.inj hrest).2]
      exact List.mem_append_right _ List.mem_cons_self

theorem isPlain_of_mem_exponentChars {e : Int} : ∀ c ∈ exponentChars e, isPlain c = true := by
  intro c hc
  unfold exponentChars at hc
  rcases List.mem_cons.1 hc with rfl | hc
  · split <;> decide
  · rcases List.mem_append.1 hc with hc | hc
    · exact isPlain_of_isDigit (Decimal.isDigit_of_mem_zeros c hc)
    · exact isPlain_of_isDigit (Decimal.isDigit_of_mem_digits hc)

section Layouts

variable {l : Layout}

theorem isPlain_of_mem_positional (hl : ∀ c ∈ l.digits, c.isDigit = true) :
    ∀ c ∈ positional l, isPlain c = true := by
  have hdigits : ∀ c ∈ l.digits, isPlain c = true := fun c hc => isPlain_of_isDigit (hl c hc)
  have hzeros : ∀ n, ∀ c ∈ List.replicate n '0', isPlain c = true := fun n c hc =>
    isPlain_of_isDigit (Decimal.isDigit_of_mem_zeros c hc)
  have hzero : ∀ c ∈ ['0'], isPlain c = true := List.forall_mem_singleton.2 rfl
  have htake : ∀ n, ∀ c ∈ l.digits.take n, isPlain c = true := fun n c hc =>
    hdigits c (List.mem_of_mem_take hc)
  have hdrop : ∀ n, ∀ c ∈ l.digits.drop n, isPlain c = true := fun n c hc =>
    hdigits c (List.mem_of_mem_drop hc)
  unfold positional
  split
  · rw [List.forall_mem_cons, List.forall_mem_cons, List.forall_mem_append]
    exact ⟨rfl, rfl, hzeros _, hdigits⟩
  · dsimp only
    rw [List.forall_mem_append, List.forall_mem_append, List.forall_mem_cons]
    refine ⟨⟨htake _, hzeros _⟩, rfl, ?_⟩
    split
    · exact hzero
    · exact hdrop _

/-- The exponent stands behind the mantissa. -/
theorem exists_scientific_eq (hne : l.digits ≠ []) (hl : ∀ c ∈ l.digits, c.isDigit = true) :
    ∃ mantissa, scientific l = mantissa ++ 'e' :: exponentChars (l.point - 1) ∧
      ∀ c ∈ mantissa, isPlain c = true := by
  obtain ⟨ds, point⟩ := l
  obtain ⟨d, ds, rfl⟩ := List.exists_cons_of_ne_nil hne
  obtain ⟨hd, hds⟩ := List.forall_mem_cons.1 hl
  refine ⟨d :: if ds.isEmpty then [] else '.' :: ds, rfl, ?_⟩
  rw [List.forall_mem_cons]
  refine ⟨isPlain_of_isDigit hd, ?_⟩
  split
  · exact List.forall_mem_nil _
  · exact List.forall_mem_cons.2 ⟨rfl, fun c hc => isPlain_of_isDigit (hds c hc)⟩

end Layouts

/-- The first digit of the shortest decimal of a number that is not whole stands at most sixteen
    places before the point. -/
theorem Finite.point_le_of_not_isWhole {x : Finite} (h : x.isWhole = false)
    (hne : (shortest x).coefficient ≠ 0) : (layoutOf (shortest x)).point ≤ 16 := by
  by_contra hlt
  have hshort := ofDecimal_shortest x
  have hpoint : (layoutOf (shortest x)).point =
      (Decimal.digits (shortest x).coefficient).length + (shortest x).exponent := rfl
  rw [hpoint] at hlt
  generalize (shortest x).coefficient = n at hne hshort hlt
  generalize (shortest x).exponent = k at hshort hlt
  have hdigits : 0 < (Decimal.digits n).length := List.length_pos_iff.2 (Decimal.digits_ne_nil n)
  have hlow : 10 ^ ((Decimal.digits n).length - 1) ≤ n :=
    Decimal.pow_le_of_lt_length hne (by omega)
  -- so the decimal is `10 ^ 16` or more, and above `2 ^ 52` every number is whole
  have hbig : 2 ^ 52 * 10 ^ (-k).toNat ≤ n * 10 ^ k.toNat := by
    calc 2 ^ 52 * 10 ^ (-k).toNat ≤ 10 ^ 16 * 10 ^ (-k).toNat :=
          Nat.mul_le_mul_right _ (by decide)
      _ = 10 ^ (16 + (-k).toNat) := (Nat.pow_add 10 16 _).symm
      _ ≤ 10 ^ ((Decimal.digits n).length - 1 + k.toNat) :=
          Nat.pow_le_pow_right (by decide) (by omega)
      _ = 10 ^ ((Decimal.digits n).length - 1) * 10 ^ k.toNat := Nat.pow_add 10 _ _
      _ ≤ n * 10 ^ k.toNat := Nat.mul_le_mul_right _ hlow
  rw [isWhole_of_le_ofDecimal hshort hbig] at h
  cases h

theorem Finite.isZero_eq_false {x : Finite} (h : x.isWhole = false) : x.isZero = false := by
  cases hx : x.isZero with
  | false => rfl
  | true =>
    have hmantissa : x.mantissa = 0 := eq_of_beq hx
    have hwhole : x.isWhole = true := by
      rw [isWhole_iff_dvd, quanta, hmantissa, Nat.zero_mul]
      exact Nat.dvd_zero _
    rw [hwhole] at h
    cases h

/-- Where the text of a number that is not whole has an exponent, the exponent is negative. -/
theorem Finite.head?_of_chars_eq {x : Finite} (h : x.isWhole = false) {front rest : List Char}
    {c : Char} (htext : x.chars = front ++ c :: rest) (hc : isPlain c = false) :
    rest.head? = some '-' := by
  have hzero := isZero_eq_false h
  have hne := shortest_coefficient_ne_zero hzero
  have hsign : ∀ c ∈ x.signChars, isPlain c = true := by
    unfold signChars
    split
    · exact List.forall_mem_singleton.2 rfl
    · exact List.forall_mem_nil _
  rw [chars, if_neg (by simp [h]), shortChars, if_neg (by simp [hzero]), decimalChars] at htext
  split at htext
  · next hpoint =>
    -- there is no exponent
    have hmem : c ∈ x.signChars ++ positional (layoutOf (shortest x)) := by
      rw [htext]
      exact List.mem_append_right _ List.mem_cons_self
    have hplain := List.forall_mem_append.2
      ⟨hsign, isPlain_of_mem_positional (isDigit_of_mem_layoutOf (d := shortest x))⟩ c hmem
    rw [hplain] at hc
    cases hc
  · next hpoint =>
    have hle := point_le_of_not_isWhole h hne
    obtain ⟨mantissa, hscientific, hmantissa⟩ :=
      exists_scientific_eq (layoutOf_digits_ne_nil hne) isDigit_of_mem_layoutOf
    rw [hscientific, ← List.append_assoc] at htext
    have hrest := eq_of_append_letter htext.symm hc
      (List.forall_mem_append.2 ⟨hsign, hmantissa⟩) isPlain_of_mem_exponentChars
    rw [hrest, exponentChars, if_pos (by omega), List.head?_cons]

end Binary64

/-! ## Texts of numbers -/

open DecimalLiteral (Writes)

/-- A finite number that is an integer is written with its sign, its digits, a point and one zero.
    Any other one never ends so and has no positive exponent. Each text denotes a rational that is
    rounded to the number. -/
theorem canonical_form_of_number (x : Binary64.Finite) :
    let cs := (Operand.number (.finite x)).text.toList
    ((∃ z : ℤ, x.toRat = z) →
      ∃ ds, cs = (if x.negative then ['-'] else []) ++ (ds ++ ['.', '0']) ∧
        Decimal.isNumeral ds = true ∧ (ds.head? = some '0' → ds = ['0']) ∧
        (Decimal.value ds : ℚ) = |x.toRat|) ∧
      ((¬ ∃ z : ℤ, x.toRat = z) →
        ¬ ['.', '0'] <:+ cs ∧
          ∀ front c rest, cs = front ++ c :: rest → c = 'e' ∨ c = 'E' →
            rest.head? = some '-') ∧
      (∃ q, Writes cs x.negative q ∧ |q| < 2 ^ 1024 - 2 ^ 970 ∧ Binary64.IsNearest q x) ∧
      (['.', '0'] <:+ cs ↔ ∃ z : ℤ, x.toRat = z) := by
  intro cs
  have hcs : cs = x.chars := String.toList_ofList
  rw [← Binary64.Finite.isWhole_iff, hcs]
  have hsuffix : ['.', '0'] <:+ x.chars ↔ x.isWhole = true :=
    ⟨Binary64.Finite.isWhole_of_suffix, Binary64.Finite.suffix_of_isWhole⟩
  refine ⟨fun hwhole => ?_, fun hwhole => ⟨fun h => hwhole (hsuffix.1 h), ?_⟩, ?_, hsuffix⟩
  · obtain ⟨n, hn⟩ := Binary64.exists_int_eq_iff.1 (Binary64.Finite.isWhole_iff.1 hwhole)
    have hquotient : x.quanta / 2 ^ (1074 : Nat) = n := by
      rw [Binary64.Finite.quanta_eq_mul_iff.2 hn, Nat.mul_div_cancel n (Nat.two_pow_pos 1074)]
    refine ⟨Decimal.digits n, ?_, Decimal.isNumeral_digits n, Decimal.digits_of_head?, ?_⟩
    · rw [Binary64.Finite.chars, if_pos hwhole, hquotient]
      rfl
    · rw [Decimal.value_digits, hn]
  · intro front c rest htext hc
    have hplain : Binary64.isPlain c = false := by
      rcases hc with rfl | rfl <;> decide
    exact Binary64.Finite.head?_of_chars_eq (Bool.eq_false_of_not_eq_true hwhole) htext hplain
  · obtain ⟨l, hnumber, hwrites⟩ := x.exists_writes_chars
    obtain ⟨hbound, -, hnearest⟩ := DecimalLiteral.number_eq_finite_iff.1 hnumber
    exact ⟨l.toRat, hwrites, hbound, hnearest⟩

/-- A whole number whose shortest text has an exponent, and the number next to negative zero. -/
theorem canonical_form_of_number_far_out :
    let large : Binary64.Finite :=
      ⟨false, 2 * 5 ^ 22, 1095, by decide, by decide, .inr (by decide)⟩
    let small : Binary64.Finite := ⟨true, 1, 0, by decide, by decide, .inl rfl⟩
    (∃ ds, "10000000000000000000000.0".toList = [] ++ (ds ++ ['.', '0']) ∧
      Decimal.isNumeral ds = true ∧ (ds.head? = some '0' → ds = ['0']) ∧
      (Decimal.value ds : ℚ) = |large.toRat|) ∧
      (¬ ['.', '0'] <:+ "-5e-324".toList) ∧
      (∀ front c rest, "-5e-324".toList = front ++ c :: rest → c = 'e' ∨ c = 'E' →
        rest.head? = some '-') ∧
      ∃ q, Writes "-5e-324".toList true q ∧ |q| < 2 ^ 1024 - 2 ^ 970 ∧
        Binary64.IsNearest q small := by
  intro large small
  have hlarge : (Operand.number (.finite large)).text = "10000000000000000000000.0" := by
    decide +kernel
  have hsmall : (Operand.number (.finite small)).text = "-5e-324" := by decide +kernel
  have hwhole : ∃ z : ℤ, large.toRat = z := Binary64.Finite.isWhole_iff.1 (by decide +kernel)
  have hbroken : ¬ ∃ z : ℤ, small.toRat = z := fun h =>
    absurd (Binary64.Finite.isWhole_iff.2 h) (by decide +kernel)
  obtain ⟨hdigits, -, -, -⟩ := canonical_form_of_number large
  obtain ⟨-, hform, hrounds, -⟩ := canonical_form_of_number small
  rw [hlarge] at hdigits
  rw [hsmall] at hform hrounds
  exact ⟨hdigits hwhole, (hform hbroken).1, (hform hbroken).2, hrounds⟩

end ReversePolish
