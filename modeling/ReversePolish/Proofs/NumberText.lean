import ReversePolish.Binary64.Text
import ReversePolish.Literal.Number
import ReversePolish.Proofs.Numeral
import ReversePolish.Proofs.Rounding

set_option autoImplicit false

/-! # The text of a number is read back

The text of a finite number is written digit by digit and read by the grammar of literals and one
rounding, and neither knows of the other. What they share is the decimal in between: every layout
of a decimal is a literal of the same decimal, the shortest decimal of a number rounds to the
number, and so does the exact expansion of a whole one. So the text of a number is a literal of
this very number, sign and last bit included. -/

namespace ReversePolish

attribute [local instance] corePow

namespace DecimalLiteral

/-! ## Reading the parts of a literal -/

section Parts

variable {ds rest : List Char}

theorem takeWhile_isDigit_append (hds : ∀ c ∈ ds, c.isDigit = true)
    (hrest : ∀ c ∈ rest.head?, c.isDigit = false) :
    (ds ++ rest).takeWhile Char.isDigit = ds := by
  rw [List.takeWhile_append_of_pos hds]
  cases rest with
  | nil => rw [List.takeWhile_nil, List.append_nil]
  | cons c cs =>
    have hc : ¬ c.isDigit = true := by simp [hrest c rfl]
    rw [List.takeWhile_cons_of_neg hc, List.append_nil]

theorem dropWhile_isDigit_append (hds : ∀ c ∈ ds, c.isDigit = true)
    (hrest : ∀ c ∈ rest.head?, c.isDigit = false) :
    (ds ++ rest).dropWhile Char.isDigit = rest := by
  rw [List.dropWhile_append_of_pos hds]
  cases rest with
  | nil => rfl
  | cons c cs =>
    have hc : ¬ c.isDigit = true := by simp [hrest c rfl]
    rw [List.dropWhile_cons_of_neg hc]

/-- Digits without a point. -/
theorem readUnsigned?_whole (s : Bool) (hne : ds ≠ []) (hds : ∀ c ∈ ds, c.isDigit = true)
    (hrest : ∀ c ∈ rest.head?, c.isDigit = false ∧ c ≠ '.') :
    readUnsigned? s (ds ++ rest) = (readExponent? rest).map fun e => ⟨s, ds, e⟩ := by
  have hdigit : ∀ c ∈ rest.head?, c.isDigit = false := fun c hc => (hrest c hc).1
  unfold readUnsigned?
  rw [takeWhile_isDigit_append hds hdigit, dropWhile_isDigit_append hds hdigit]
  cases rest with
  | nil => simp [hne]
  | cons c cs =>
    have hc : c ≠ '.' := (hrest c rfl).2
    simp [hne, hc]

/-- Digits on either side of a point, or on one side only. -/
theorem readUnsigned?_point (s : Bool) {ws : List Char} (hne : ws ≠ [] ∨ ds ≠ [])
    (hws : ∀ c ∈ ws, c.isDigit = true) (hds : ∀ c ∈ ds, c.isDigit = true)
    (hrest : ∀ c ∈ rest.head?, c.isDigit = false) :
    readUnsigned? s (ws ++ '.' :: (ds ++ rest)) =
      (readExponent? rest).map fun e => ⟨s, ws ++ ds, e - ds.length⟩ := by
  have hpoint : ∀ c ∈ ('.' :: (ds ++ rest)).head?, c.isDigit = false := by
    rintro c ⟨rfl⟩
    rfl
  have hdigits : (ws.isEmpty && ds.isEmpty) = false := by
    rcases hne with hne | hne
    · simp [hne]
    · simp [hne]
  unfold readUnsigned?
  rw [takeWhile_isDigit_append hws hpoint, dropWhile_isDigit_append hws hpoint]
  simp only [takeWhile_isDigit_append hds hrest, dropWhile_isDigit_append hds hrest]
  simp [hdigits]

/-- The number of a literal with a point and no exponent. -/
theorem number_point (s : Bool) {ws : List Char} (hne : ws ≠ [])
    (hws : ∀ c ∈ ws, c.isDigit = true) (hds : ∀ c ∈ ds, c.isDigit = true) :
    (readUnsigned? s (ws ++ '.' :: ds)).map number =
      some (.ofDecimal s (Decimal.value (ws ++ ds)) (-(ds.length : Int))) := by
  have hend : ∀ c ∈ ([] : List Char).head?, c.isDigit = false := by simp
  have hread := readUnsigned?_point s (.inl hne) hws hds hend
  rw [List.append_nil] at hread
  rw [hread, readExponent?, Option.map_some, Option.map_some, Int.zero_sub]
  rfl

end Parts

/-- A literal without a sign does not start like one with a sign. -/
theorem splitSign_of_readUnsigned? {s : Bool} {cs : List Char} {l : DecimalLiteral}
    (h : readUnsigned? s cs = some l) : Decimal.splitSign cs = (false, cs) := by
  unfold Decimal.splitSign
  split
  · simp [readUnsigned?] at h
  · simp [readUnsigned?] at h
  · rfl

end DecimalLiteral

namespace Binary64

open DecimalLiteral (readExponent? readUnsigned? readUnsigned?_whole readUnsigned?_point
  number_point)

/-! ## Layouts of a decimal -/

theorem splitSign_exponentChars (e : Int) :
    Decimal.splitSign (exponentChars e) =
      (decide (e < 0), List.replicate (2 - (Decimal.digits e.natAbs).length) '0' ++
        Decimal.digits e.natAbs) := by
  unfold exponentChars
  by_cases he : e < 0
  · simp [he, Decimal.splitSign]
  · simp [he, Decimal.splitSign]

theorem readExponent?_exponentChars (e : Int) :
    readExponent? ('e' :: exponentChars e) = some e := by
  have hinteger : Decimal.isInteger (exponentChars e) = true := by
    rw [Decimal.isInteger, splitSign_exponentChars, Decimal.isNumeral_iff]
    refine ⟨by simp [Decimal.digits_ne_nil], List.forall_mem_append.2 ⟨?_, ?_⟩⟩
    · exact Decimal.isDigit_of_mem_zeros
    · exact fun c hc => Decimal.isDigit_of_mem_digits hc
  have hvalue : Decimal.intValue (exponentChars e) = e := by
    simp only [Decimal.intValue, splitSign_exponentChars, Decimal.value_zeros_append,
      Decimal.value_digits, decide_eq_true_eq]
    split <;> omega
  rw [readExponent?, hinteger, hvalue]
  rfl

/-- The number that a layout denotes. -/
def Layout.number (s : Bool) (l : Layout) : Binary64 :=
  ofDecimal s (Decimal.value l.digits) (l.point - l.digits.length)

section Layouts

variable (s : Bool) {l : Layout}

theorem read_scientific (hne : l.digits ≠ []) (hl : ∀ c ∈ l.digits, c.isDigit = true) :
    (readUnsigned? s (scientific l)).map DecimalLiteral.number = some (l.number s) := by
  obtain ⟨ds, point⟩ := l
  cases ds with
  | nil => exact absurd rfl hne
  | cons d ds =>
    obtain ⟨hd, hds⟩ := List.forall_mem_cons.1 hl
    have hwhole : ∀ c ∈ [d], c.isDigit = true := by simpa using hd
    have hexponent : ∀ c ∈ ('e' :: exponentChars (point - 1)).head?,
        c.isDigit = false ∧ c ≠ '.' := by
      rintro c ⟨rfl⟩
      decide
    cases ds with
    | nil =>
      have htext : scientific ⟨[d], point⟩ = [d] ++ 'e' :: exponentChars (point - 1) := rfl
      rw [htext, readUnsigned?_whole s (List.cons_ne_nil _ _) hwhole hexponent,
        readExponent?_exponentChars]
      rfl
    | cons a ds =>
      have htext : scientific ⟨d :: a :: ds, point⟩ =
          [d] ++ '.' :: (a :: ds ++ 'e' :: exponentChars (point - 1)) := rfl
      have hscale : point - 1 - ((a :: ds).length : Int) = point - (d :: a :: ds).length := by
        simp only [List.length_cons]
        omega
      rw [htext, readUnsigned?_point s (.inl (List.cons_ne_nil _ _)) hwhole hds
        fun c hc => (hexponent c hc).1, readExponent?_exponentChars, Option.map_some, hscale]
      rfl

/-- All digits behind the point, with zeros in front of them. -/
theorem read_positional_of_nonpos (hl : ∀ c ∈ l.digits, c.isDigit = true) (hpoint : l.point ≤ 0) :
    (readUnsigned? s (positional l)).map DecimalLiteral.number = some (l.number s) := by
  have hds : ∀ c ∈ List.replicate l.point.natAbs '0' ++ l.digits, c.isDigit = true :=
    List.forall_mem_append.2 ⟨Decimal.isDigit_of_mem_zeros, hl⟩
  have hvalue : Decimal.value (['0'] ++ (List.replicate l.point.natAbs '0' ++ l.digits)) =
      Decimal.value l.digits := by
    rw [← List.replicate_one, Decimal.value_zeros_append, Decimal.value_zeros_append]
  have hscale : -((List.replicate l.point.natAbs '0' ++ l.digits).length : Int) =
      l.point - l.digits.length := by
    rw [List.length_append, List.length_replicate]
    omega
  rw [positional, if_pos hpoint]
  have hread := number_point s (List.cons_ne_nil '0' []) Decimal.isDigit_of_mem_zero hds
  rw [hvalue, hscale] at hread
  exact hread

/-- A whole number, filled up with zeros and with one more zero behind the point. -/
theorem read_positional_of_length_le (hne : l.digits ≠ [])
    (hl : ∀ c ∈ l.digits, c.isDigit = true) (hpoint : ¬ l.point ≤ 0)
    (hlength : l.digits.length ≤ l.point.toNat) :
    (readUnsigned? s (positional l)).map DecimalLiteral.number = some (l.number s) := by
  let zeros := List.replicate (l.point.toNat - l.digits.length) '0'
  have htext : positional l = l.digits ++ zeros ++ '.' :: ['0'] := by
    simp only [positional, if_neg hpoint, List.take_of_length_le hlength,
      List.drop_of_length_le hlength, List.isEmpty_nil, if_true, zeros]
  have hds : ∀ c ∈ l.digits ++ zeros, c.isDigit = true :=
    List.forall_mem_append.2 ⟨hl, Decimal.isDigit_of_mem_zeros⟩
  have hvalue : Decimal.value (l.digits ++ zeros ++ ['0']) =
      Decimal.value l.digits * 10 ^ (l.point.toNat - l.digits.length + 1) := by
    rw [List.append_assoc, ← List.replicate_succ', Decimal.value_append_zeros]
  have hscale : -1 + ((l.point.toNat - l.digits.length + 1 : Nat) : Int) =
      l.point - l.digits.length := by
    omega
  have hne' : l.digits ++ zeros ≠ [] := by simp [hne]
  rw [htext, number_point s hne' hds Decimal.isDigit_of_mem_zero, hvalue, Layout.number, ← hscale,
    ← ofDecimal_mul_pow]
  rfl

/-- Digits on either side of the point. -/
theorem read_positional_of_lt (hne : l.digits ≠ []) (hl : ∀ c ∈ l.digits, c.isDigit = true)
    (hpoint : ¬ l.point ≤ 0) (hlength : l.point.toNat < l.digits.length) :
    (readUnsigned? s (positional l)).map DecimalLiteral.number = some (l.number s) := by
  have htext : positional l =
      l.digits.take l.point.toNat ++ '.' :: l.digits.drop l.point.toNat := by
    have hfull : (l.digits.take l.point.toNat).length = l.point.toNat := by
      rw [List.length_take]
      omega
    have hdrop : (l.digits.drop l.point.toNat).isEmpty = false := by
      simpa using hlength
    simp only [positional, if_neg hpoint, hfull, hdrop, Nat.sub_self, List.replicate_zero,
      List.append_nil, Bool.false_eq_true, if_false]
  have hne' : l.digits.take l.point.toNat ≠ [] := by
    rw [Ne, List.take_eq_nil_iff]
    rintro (hzero | hnil)
    · omega
    · exact hne hnil
  have hscale : -((l.digits.drop l.point.toNat).length : Int) = l.point - l.digits.length := by
    rw [List.length_drop]
    omega
  rw [htext, number_point s hne' (fun c hc => hl c (List.mem_of_mem_take hc))
    (fun c hc => hl c (List.mem_of_mem_drop hc)), List.take_append_drop, hscale]
  rfl

theorem read_positional (hne : l.digits ≠ []) (hl : ∀ c ∈ l.digits, c.isDigit = true) :
    (readUnsigned? s (positional l)).map DecimalLiteral.number = some (l.number s) := by
  by_cases hpoint : l.point ≤ 0
  · exact read_positional_of_nonpos s hl hpoint
  · rcases Nat.lt_or_ge l.point.toNat l.digits.length with hlength | hlength
    · exact read_positional_of_lt s hne hl hpoint hlength
    · exact read_positional_of_length_le s hne hl hpoint hlength

end Layouts

/-! ## The layout of a decimal -/

/-- Only zeros are cut off. -/
theorem exists_digits_eq_append (d : ShortDecimal) :
    ∃ k, Decimal.digits d.coefficient = (layoutOf d).digits ++ List.replicate k '0' := by
  let ds := Decimal.digits d.coefficient
  let cut := (ds.reverse.takeWhile (· == '0')).reverse
  have hsplit : ds = (layoutOf d).digits ++ cut := by
    have h : ds.reverse.takeWhile (· == '0') ++ ds.reverse.dropWhile (· == '0') = ds.reverse :=
      List.takeWhile_append_dropWhile
    have h' := congrArg List.reverse h
    rw [List.reverse_append, List.reverse_reverse] at h'
    exact h'.symm
  have hcut : cut = List.replicate cut.length '0' := by
    refine List.eq_replicate_of_mem fun c hc => ?_
    have hzero := List.all_eq_true.1 List.all_takeWhile c (List.mem_reverse.1 hc)
    exact eq_of_beq hzero
  exact ⟨cut.length, hsplit.trans (by rw [← hcut])⟩

theorem isDigit_of_mem_layoutOf {d : ShortDecimal} :
    ∀ c ∈ (layoutOf d).digits, c.isDigit = true := by
  obtain ⟨k, hk⟩ := exists_digits_eq_append d
  intro c hc
  exact Decimal.isDigit_of_mem_digits (hk ▸ List.mem_append_left _ hc)

theorem layoutOf_digits_ne_nil {d : ShortDecimal} (hd : d.coefficient ≠ 0) :
    (layoutOf d).digits ≠ [] := by
  obtain ⟨k, hk⟩ := exists_digits_eq_append d
  intro hnil
  apply hd
  rw [← Decimal.value_digits d.coefficient, hk, hnil, List.nil_append, Decimal.value_replicate_zero]

theorem number_layoutOf (s : Bool) (d : ShortDecimal) :
    (layoutOf d).number s = ofDecimal s d.coefficient d.exponent := by
  obtain ⟨k, hk⟩ := exists_digits_eq_append d
  have hvalue : d.coefficient = Decimal.value (layoutOf d).digits * 10 ^ k := by
    rw [← Decimal.value_append_zeros, ← hk, Decimal.value_digits]
  have hlength : (Decimal.digits d.coefficient).length = (layoutOf d).digits.length + k := by
    rw [hk, List.length_append, List.length_replicate]
  have hpoint : (layoutOf d).point - (layoutOf d).digits.length = d.exponent + k := by
    have : (layoutOf d).point = (Decimal.digits d.coefficient).length + d.exponent := rfl
    omega
  rw [Layout.number, hpoint, ← ofDecimal_mul_pow, ← hvalue]

/-- The text of a decimal is a literal of this decimal. -/
theorem read_decimalChars (s : Bool) {d : ShortDecimal} (hd : d.coefficient ≠ 0) :
    (readUnsigned? s (decimalChars d)).map DecimalLiteral.number =
      some (ofDecimal s d.coefficient d.exponent) := by
  have hne := layoutOf_digits_ne_nil hd
  rw [← number_layoutOf]
  unfold decimalChars
  dsimp only
  split
  · exact read_positional s hne isDigit_of_mem_layoutOf
  · exact read_scientific s hne isDigit_of_mem_layoutOf

/-! ## Numbers -/

theorem ofQuanta_mul_five_pow (x : Finite) (n : Nat) :
    ofQuanta x.negative (x.quanta * 5 ^ n * 2 ^ n) (10 ^ n) = finite x := by
  have hten : x.quanta * 5 ^ n * 2 ^ n = x.quanta * 10 ^ n := by
    rw [Nat.mul_assoc, ← Nat.mul_pow]
  rw [hten, ofQuanta_quanta x (Nat.pow_pos (by decide))]

/-- The exact expansion has at most 1074 digits behind the point. -/
theorem ofDecimal_exactCoefficient (x : Finite) :
    ofDecimal x.negative (exactCoefficient x) (-1074) = finite x := by
  have hup : (-1074 : Int).toNat = 0 := rfl
  have hdown : (-(-1074 : Int)).toNat = 1074 := rfl
  rw [ofDecimal_eq_ofQuanta, hup, hdown, Nat.pow_zero, Nat.mul_one, exactCoefficient]
  exact ofQuanta_mul_five_pow x 1074

/-- A decimal that is tried is only taken when it rounds to the number. -/
theorem readsBack_shortest_or (x : Finite) :
    readsBack x (shortest x) = true ∨ shortest x = ⟨exactCoefficient x, -1074⟩ := by
  unfold shortest
  generalize exactCoefficient x = exact
  dsimp only
  generalize hfound : List.findSome? _ _ = found
  cases found with
  | none => exact .inr rfl
  | some d =>
    obtain ⟨i, -, hi⟩ := List.exists_of_findSome?_eq_some hfound
    have hback : readsBack x d = true := List.find?_some hi
    exact .inl hback

theorem ofDecimal_shortest (x : Finite) :
    ofDecimal x.negative (shortest x).coefficient (shortest x).exponent = finite x := by
  rcases readsBack_shortest_or x with h | h
  · unfold readsBack at h
    exact eq_of_beq h
  · rw [h, ofDecimal_exactCoefficient]

theorem finite_eq_zero_iff {x : Finite} {s : Bool} :
    finite x = zero s ↔ x.isZero = true ∧ x.negative = s := by
  obtain ⟨negative, m, e, hm, he, hnormal⟩ := x
  simp only [zero, Finite.zero, Finite.isZero, finite.injEq, Finite.mk.injEq, beq_iff_eq]
  constructor
  · rintro ⟨hs, hzero, -⟩
    exact ⟨hzero, hs⟩
  · rintro ⟨hzero, hs⟩
    exact ⟨hs, hzero, by omega⟩

theorem shortest_coefficient_ne_zero {x : Finite} (hx : x.isZero = false) :
    (shortest x).coefficient ≠ 0 := by
  intro hzero
  have h := ofDecimal_shortest x
  rw [hzero, ofDecimal_zero] at h
  have hx' := (finite_eq_zero_iff.1 h.symm).1
  rw [hx] at hx'
  exact absurd hx' (by decide)

namespace Finite

theorem read?_signChars_append {x : Finite} {cs : List Char} {y : Binary64}
    (h : (readUnsigned? x.negative cs).map DecimalLiteral.number = some y) :
    (DecimalLiteral.read? (x.signChars ++ cs)).map DecimalLiteral.number = some y := by
  unfold signChars DecimalLiteral.read?
  cases hs : x.negative with
  | false =>
    rw [hs] at h
    obtain ⟨l, hl, -⟩ := Option.map_eq_some_iff.1 h
    rw [if_neg (by decide), List.nil_append, DecimalLiteral.splitSign_of_readUnsigned? hl]
    exact h
  | true =>
    rw [hs] at h
    exact h

theorem read?_shortChars (x : Finite) :
    (DecimalLiteral.read? x.shortChars).map DecimalLiteral.number = some (finite x) := by
  unfold shortChars
  refine read?_signChars_append ?_
  cases hx : x.isZero with
  | true =>
    have hzero := number_point x.negative (List.cons_ne_nil '0' []) Decimal.isDigit_of_mem_zero
      Decimal.isDigit_of_mem_zero
    have hvalue : Decimal.value (['0'] ++ ['0']) = 0 := rfl
    rw [hvalue, ofDecimal_zero, ← finite_eq_zero_iff.2 ⟨hx, rfl⟩] at hzero
    rw [if_pos rfl]
    exact hzero
  | false =>
    rw [if_neg (by decide), read_decimalChars x.negative (shortest_coefficient_ne_zero hx),
      ofDecimal_shortest]

theorem ofDecimal_of_isWhole {x : Finite} (hx : x.isWhole = true) :
    ofDecimal x.negative (x.quanta / 2 ^ (1074 : Nat)) 0 = finite x := by
  have hmod : x.quanta % 2 ^ (1074 : Nat) = 0 := eq_of_beq hx
  have hquanta : x.quanta / 2 ^ (1074 : Nat) * 2 ^ (1074 : Nat) = x.quanta :=
    Nat.div_mul_cancel (Nat.dvd_of_mod_eq_zero hmod)
  have hone := ofQuanta_quanta x Nat.one_pos
  rw [Nat.mul_one] at hone
  rw [ofDecimal_eq_ofQuanta, Int.neg_zero, Int.toNat_zero, Nat.pow_zero, Nat.mul_one, hquanta, hone]

theorem read?_chars (x : Finite) :
    (DecimalLiteral.read? x.chars).map DecimalLiteral.number = some (finite x) := by
  unfold chars
  split
  · next hx =>
    refine read?_signChars_append ?_
    have hread := number_point x.negative (Decimal.digits_ne_nil (x.quanta / 2 ^ (1074 : Nat)))
      (fun c hc => Decimal.isDigit_of_mem_digits hc) Decimal.isDigit_of_mem_zero
    rw [← List.replicate_one, Decimal.value_append_zeros, List.length_replicate, ofDecimal_mul_pow,
      Decimal.value_digits] at hread
    exact hread.trans (congrArg some (ofDecimal_of_isWhole hx))
  · exact read?_shortChars x

end Finite

end Binary64

end ReversePolish
