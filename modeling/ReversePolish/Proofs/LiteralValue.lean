import ReversePolish.Proofs.Label
import ReversePolish.Proofs.NumberText
import ReversePolish.Proofs.RationalValue

set_option autoImplicit false

/-! # The value of a number literal

What a literal looks like and which rational it denotes is said by a grammar, apart from how it is
read. A token is read as a number if and only if the grammar has it and the magnitude is below
`2 ^ 1024 - 2 ^ 970`; the number is then the nearest one to the exact rational, at any length of
the digits and any size of the exponent, and it has the sign of the literal even where it is zero.
Any other token is refused, for its size if the grammar has it and for its form if not. -/

namespace ReversePolish

namespace DecimalLiteral

/-! ## The grammar -/

/-- The text is an optional sign, and a minus for `true`. -/
inductive WritesSign : List Char → Bool → Prop where
  | absent : WritesSign [] false
  | plus : WritesSign ['+'] false
  | minus : WritesSign ['-'] true

/-- The text is digits with an optional point behind or among them, or a point and digits. The
    numerals are the digits before and after the point. -/
inductive WritesMantissa : List Char → List Char → List Char → Prop where
  | whole {ws : List Char} (whole_digits : Decimal.isNumeral ws = true) : WritesMantissa ws ws []
  | point {ws fs : List Char} (whole_digits : Decimal.isNumeral ws = true)
      (fraction_digits : ∀ c ∈ fs, c.isDigit = true) : WritesMantissa (ws ++ '.' :: fs) ws fs
  | fraction {fs : List Char} (fraction_digits : Decimal.isNumeral fs = true) :
      WritesMantissa ('.' :: fs) [] fs

/-- The text is an optional exponent. -/
inductive WritesExponent : List Char → Int → Prop where
  | absent : WritesExponent [] 0
  | present {c : Char} {sign ds : List Char} {negative : Bool} (letter : c = 'e' ∨ c = 'E')
      (sign_text : WritesSign sign negative) (exponent_digits : Decimal.isNumeral ds = true) :
      WritesExponent (c :: (sign ++ ds))
        (if negative then -(Decimal.value ds : Int) else Decimal.value ds)

/-- The text is a literal that denotes the rational, with a minus for `true`. -/
inductive Writes : List Char → Bool → ℚ → Prop where
  | literal {sign mantissa exponent ws fs : List Char} {negative : Bool} {e : Int}
      (sign_text : WritesSign sign negative) (mantissa_text : WritesMantissa mantissa ws fs)
      (exponent_text : WritesExponent exponent e) :
      Writes (sign ++ (mantissa ++ exponent)) negative
        (withSign negative ((Decimal.value ws + Decimal.value fs / 10 ^ fs.length) * 10 ^ e))

/-- The exact rational of the decimal that a literal is read as. -/
def toRat (l : DecimalLiteral) : ℚ :=
  withSign l.negative (Decimal.value l.digits * 10 ^ l.scale)

/-- The point only moves the exponent. -/
theorem value_append_mul_zpow (ws fs : List Char) (e : Int) :
    (Decimal.value (ws ++ fs) : ℚ) * 10 ^ (e - fs.length) =
      (Decimal.value ws + Decimal.value fs / 10 ^ fs.length) * 10 ^ e := by
  have hten : (10 : ℚ) ≠ 0 := by norm_num
  rw [Decimal.value_append, zpow_sub₀ hten, zpow_natCast]
  simp only [Nat.cast_add, Nat.cast_mul, Nat.cast_pow, Nat.cast_ofNat]
  field_simp

/-! ## A literal is read -/

theorem splitSign_append_eq {sign : List Char} {negative : Bool} (h : WritesSign sign negative)
    {cs : List Char} (hcs : Decimal.splitSign cs = (false, cs)) :
    Decimal.splitSign (sign ++ cs) = (negative, cs) := by
  cases h with
  | absent => exact hcs
  | plus => rfl
  | minus => rfl

theorem readExponent?_of_writes {cs : List Char} {e : Int} (h : WritesExponent cs e) :
    readExponent? cs = some e := by
  cases h with
  | absent => rfl
  | present hletter hsign hds =>
    have hsplit := splitSign_append_eq hsign (Decimal.splitSign_of_isNumeral hds)
    simp only [readExponent?, Decimal.isInteger, Decimal.intValue, hsplit, hds]
    simp [hletter]

/-- An exponent does not go on with the digits before it, nor with a point. -/
theorem head?_of_writesExponent {cs : List Char} {e : Int} (h : WritesExponent cs e) :
    ∀ c ∈ cs.head?, c.isDigit = false ∧ c ≠ '.' := by
  cases h with
  | absent => simp
  | present hletter hsign hds =>
    rintro c ⟨rfl⟩
    rcases hletter with rfl | rfl
    · decide
    · decide

theorem readUnsigned?_of_writes (s : Bool) {mantissa exponent ws fs : List Char} {e : Int}
    (hmantissa : WritesMantissa mantissa ws fs) (hexponent : WritesExponent exponent e) :
    readUnsigned? s (mantissa ++ exponent) = some ⟨s, ws ++ fs, e - fs.length⟩ := by
  have hhead := head?_of_writesExponent hexponent
  have hhead' : ∀ c ∈ exponent.head?, c.isDigit = false := fun c hc => (hhead c hc).1
  have hread := readExponent?_of_writes hexponent
  cases hmantissa with
  | whole hws =>
    obtain ⟨hne, hws⟩ := Decimal.isNumeral_iff.1 hws
    rw [readUnsigned?_whole s hne hws hhead, hread]
    simp
  | point hws hfs =>
    obtain ⟨hne, hws⟩ := Decimal.isNumeral_iff.1 hws
    rw [List.append_assoc, List.cons_append, readUnsigned?_point s (.inl hne) hws hfs hhead', hread]
    rfl
  | fraction hfs =>
    obtain ⟨hne, hfs⟩ := Decimal.isNumeral_iff.1 hfs
    have hpoint := readUnsigned?_point s (.inr hne) (List.forall_mem_nil _) hfs hhead'
    rw [hread] at hpoint
    exact hpoint

theorem exists_read?_of_writes {cs : List Char} {negative : Bool} {q : ℚ}
    (h : Writes cs negative q) :
    ∃ l, read? cs = some l ∧ l.negative = negative ∧ l.toRat = q := by
  obtain @⟨sign, mantissa, exponent, ws, fs, _, e, hsign, hmantissa, hexponent⟩ := h
  have hread := readUnsigned?_of_writes negative hmantissa hexponent
  have hsplit := splitSign_append_eq hsign (splitSign_of_readUnsigned? hread)
  refine ⟨⟨negative, ws ++ fs, e - fs.length⟩, ?_, rfl, ?_⟩
  · rw [read?, hsplit]
    exact hread
  · rw [toRat, value_append_mul_zpow]

/-- A text denotes one rational at most. -/
theorem Writes.unique {cs : List Char} {s t : Bool} {p q : ℚ} (hp : Writes cs s p)
    (hq : Writes cs t q) : s = t ∧ p = q := by
  obtain ⟨l, hl, hs, hlp⟩ := exists_read?_of_writes hp
  obtain ⟨l', hl', ht, hlq⟩ := exists_read?_of_writes hq
  obtain rfl : l = l' := Option.some.inj (hl.symm.trans hl')
  exact ⟨hs.symm.trans ht, hlp.symm.trans hlq⟩

/-! ## What is read is a literal -/

theorem exists_writesSign (cs : List Char) :
    ∃ sign, cs = sign ++ (Decimal.splitSign cs).2 ∧
      WritesSign sign (Decimal.splitSign cs).1 := by
  unfold Decimal.splitSign
  split
  · exact ⟨['-'], rfl, .minus⟩
  · exact ⟨['+'], rfl, .plus⟩
  · exact ⟨[], rfl, .absent⟩

theorem writesExponent_of_readExponent? {cs : List Char} {e : Int}
    (h : readExponent? cs = some e) : WritesExponent cs e := by
  cases cs with
  | nil =>
    cases h
    exact .absent
  | cons c cs =>
    simp only [readExponent?, Option.ite_none_right_eq_some, Bool.and_eq_true, Bool.or_eq_true,
      beq_iff_eq, Option.some.injEq] at h
    obtain ⟨⟨hletter, hinteger⟩, rfl⟩ := h
    obtain ⟨sign, htext, hsign⟩ := exists_writesSign cs
    have hwrites := WritesExponent.present hletter hsign hinteger
    rw [← htext] at hwrites
    exact hwrites

/-- A mantissa and an exponent, in which the point and the digits behind it may be missing. -/
theorem exists_writes_of_readUnsigned? {s : Bool} {cs : List Char} {l : DecimalLiteral}
    (h : readUnsigned? s cs = some l) :
    ∃ mantissa exponent ws fs e, cs = mantissa ++ exponent ∧ WritesMantissa mantissa ws fs ∧
      WritesExponent exponent e ∧ l = ⟨s, ws ++ fs, e - fs.length⟩ := by
  have htake : ∀ ds : List Char, ds.takeWhile Char.isDigit ++ ds.dropWhile Char.isDigit = ds :=
    fun ds => List.takeWhile_append_dropWhile
  have hdigits : ∀ ds : List Char, ∀ c ∈ ds.takeWhile Char.isDigit, c.isDigit = true :=
    fun ds => List.all_eq_true.1 List.all_takeWhile
  have hcs := htake cs
  have hws := hdigits cs
  unfold readUnsigned? at h
  dsimp only at h
  generalize cs.takeWhile Char.isDigit = ws at hcs hws h
  generalize cs.dropWhile Char.isDigit = tail at hcs h
  split at h
  · next rest =>
    have hrest := htake rest
    have hfs := hdigits rest
    generalize rest.takeWhile Char.isDigit = fs at hrest hfs h
    generalize rest.dropWhile Char.isDigit = tail at hrest h
    simp only [Option.ite_none_left_eq_some, Option.map_eq_some_iff, Bool.and_eq_true,
      List.isEmpty_iff, not_and] at h
    obtain ⟨hne, e, he, rfl⟩ := h
    have hexponent := writesExponent_of_readExponent? he
    rw [← hrest] at hcs
    by_cases hempty : ws = []
    · subst hempty
      exact ⟨'.' :: fs, tail, [], fs, e, hcs.symm,
        .fraction (Decimal.isNumeral_iff.2 ⟨hne rfl, hfs⟩), hexponent, rfl⟩
    · refine ⟨ws ++ '.' :: fs, tail, ws, fs, e, ?_,
        .point (Decimal.isNumeral_iff.2 ⟨hempty, hws⟩) hfs, hexponent, rfl⟩
      rw [← hcs, List.append_assoc, List.cons_append]
  · simp only [Option.ite_none_left_eq_some, Option.map_eq_some_iff, Bool.and_eq_true,
      List.isEmpty_iff, and_true] at h
    obtain ⟨hne, e, he, rfl⟩ := h
    refine ⟨ws, tail, ws, [], e, hcs.symm, .whole (Decimal.isNumeral_iff.2 ⟨hne, hws⟩),
      writesExponent_of_readExponent? he, ?_⟩
    simp

theorem writes_of_read? {cs : List Char} {l : DecimalLiteral} (h : read? cs = some l) :
    Writes cs l.negative l.toRat := by
  obtain ⟨sign, htext, hsign⟩ := exists_writesSign cs
  have hread : readUnsigned? (Decimal.splitSign cs).1 (Decimal.splitSign cs).2 = some l := h
  generalize Decimal.splitSign cs = split at htext hsign hread
  obtain ⟨mantissa, exponent, ws, fs, e, hrest, hmantissa, hexponent, rfl⟩ :=
    exists_writes_of_readUnsigned? hread
  rw [toRat, value_append_mul_zpow, htext, hrest]
  exact .literal hsign hmantissa hexponent

/-! ## The number of a literal -/

theorem abs_toRat (l : DecimalLiteral) :
    |l.toRat| = Decimal.value l.digits * 10 ^ l.scale := by
  rw [toRat, abs_withSign, abs_of_nonneg (by positivity)]

theorem number_eq_finite_iff {l : DecimalLiteral} {x : Binary64.Finite} :
    l.number = .finite x ↔
      |l.toRat| < 2 ^ 1024 - 2 ^ 970 ∧ x.negative = l.negative ∧ Binary64.IsNearest l.toRat x := by
  rw [abs_toRat]
  exact Binary64.ofDecimal_eq_finite_iff

theorem number_eq_infinity_iff {l : DecimalLiteral} :
    l.number = .infinity l.negative ↔ 2 ^ 1024 - 2 ^ 970 ≤ |l.toRat| := by
  rw [abs_toRat]
  exact Binary64.ofDecimal_eq_infinity_iff

theorem number_cases (l : DecimalLiteral) :
    (∃ x, l.number = .finite x) ∨ l.number = .infinity l.negative := by
  unfold number
  rw [Binary64.ofDecimal_eq_ofQuanta]
  exact (Binary64.pack_eq_infinity_or _ _ _ _).symm

theorem read?_eq_none_iff {cs : List Char} :
    read? cs = none ↔ ¬ ∃ negative q, Writes cs negative q := by
  constructor
  · rintro h ⟨negative, q, hwrites⟩
    obtain ⟨l, hl, -⟩ := exists_read?_of_writes hwrites
    rw [h] at hl
    cases hl
  · intro h
    rw [Option.eq_none_iff_forall_ne_some]
    exact fun l hl => h ⟨_, _, writes_of_read? hl⟩

end DecimalLiteral

/-! ## Tokens -/

open DecimalLiteral (Writes)

section Tokens

variable (token : String) (position : Nat)

/-- The token is refused as an invalid one, with that wording before its place. -/
def RefusedAs (wording : String) : Prop :=
  ∃ e, readNumber token position = .error (.syntaxError e) ∧
    e.issue = ⟨.invalidToken, wording ++ SyntaxError.place token position, some token,
      some position, none⟩

/-- A token is refused for its form or for its size, and the wording says which. -/
theorem refusedAs_iff (wording : String) :
    RefusedAs token position wording ↔
      wording = "Invalid token" ∧ DecimalLiteral.read? token.toList = none ∨
        wording = "Number out of range" ∧ ∃ l, DecimalLiteral.read? token.toList = some l ∧
          l.number = .infinity l.negative := by
  unfold RefusedAs
  constructor
  · rintro ⟨e, he, hissue⟩
    have hmessage := congrArg SyntaxError.Issue.message hissue
    unfold readNumber at he
    split at he
    · next hnone =>
      cases he
      exact .inl ⟨((String.append_left_inj _).1 hmessage).symm, Option.map_eq_none_iff.1 hnone⟩
    · cases he
    · next hinfinite hsome =>
      cases he
      obtain ⟨l, hl, rfl⟩ := Option.map_eq_some_iff.1 hsome
      have hnumber := l.number_cases.resolve_left fun ⟨x, hx⟩ => hinfinite x hx
      exact .inr ⟨((String.append_left_inj _).1 hmessage).symm, l, hl, hnumber⟩
  · rintro (⟨rfl, hnone⟩ | ⟨rfl, l, hl, hnumber⟩)
    · refine ⟨.badLiteral .notANumber token position, ?_, rfl⟩
      rw [readNumber, hnone]
      rfl
    · refine ⟨.badLiteral .outOfRange token position, ?_, rfl⟩
      rw [readNumber, hl, Option.map_some, hnumber]

end Tokens

/-- A token is read as the number nearest to the rational that it denotes, with its sign, or it is
    refused: for its size from half a step above the largest number on, and for its form where it
    denotes nothing. -/
theorem number_literals_round_to_nearest (token : String) (position : Nat) :
    (∀ l, readNumber token position = .ok l ↔
      ∃ negative q x, Writes token.toList negative q ∧ |q| < 2 ^ 1024 - 2 ^ 970 ∧
        x.negative = negative ∧ Binary64.IsNearest q x ∧ l = .number x) ∧
      (RefusedAs token position "Number out of range" ↔
        ∃ negative q, Writes token.toList negative q ∧ 2 ^ 1024 - 2 ^ 970 ≤ |q|) ∧
      (RefusedAs token position "Invalid token" ↔
        ¬ ∃ negative q, Writes token.toList negative q) := by
  refine ⟨fun l => ?_, ?_, ?_⟩
  · rw [readNumber_eq_ok_iff]
    constructor
    · rintro ⟨x, hx, rfl⟩
      obtain ⟨d, hd, hnumber⟩ := Option.map_eq_some_iff.1 hx
      obtain ⟨hbound, hs, hnearest⟩ := DecimalLiteral.number_eq_finite_iff.1 hnumber
      exact ⟨d.negative, d.toRat, x, DecimalLiteral.writes_of_read? hd, hbound, hs, hnearest, rfl⟩
    · rintro ⟨negative, q, x, hwrites, hbound, hs, hnearest, rfl⟩
      obtain ⟨d, hd, rfl, rfl⟩ := DecimalLiteral.exists_read?_of_writes hwrites
      have hnumber := DecimalLiteral.number_eq_finite_iff.2 ⟨hbound, hs, hnearest⟩
      exact ⟨x, by rw [hd, Option.map_some, hnumber], rfl⟩
  · rw [refusedAs_iff]
    constructor
    · rintro (⟨hwording, -⟩ | ⟨-, d, hd, hnumber⟩)
      · exact absurd hwording (by decide)
      · exact ⟨d.negative, d.toRat, DecimalLiteral.writes_of_read? hd,
          DecimalLiteral.number_eq_infinity_iff.1 hnumber⟩
    · rintro ⟨negative, q, hwrites, hbound⟩
      obtain ⟨d, hd, rfl, rfl⟩ := DecimalLiteral.exists_read?_of_writes hwrites
      exact .inr ⟨rfl, d, hd, DecimalLiteral.number_eq_infinity_iff.2 hbound⟩
  · rw [refusedAs_iff, ← DecimalLiteral.read?_eq_none_iff]
    constructor
    · rintro (⟨-, hnone⟩ | ⟨hwording, -⟩)
      · exact hnone
      · exact absurd hwording (by decide)
    · exact fun hnone => .inl ⟨rfl, hnone⟩

/-- What is too small for the format is a zero that keeps its sign. -/
example : readNumber "-1e-400" 0 = .ok (.number (.zero true)) := by rfl

end ReversePolish
