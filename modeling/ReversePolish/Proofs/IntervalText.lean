import ReversePolish.Literal.Interval
import ReversePolish.Proofs.Numeral
import ReversePolish.Proofs.Outcome

set_option autoImplicit false

/-! # The text of an interval

A literal is cut at its first comma, and what stands on either side is looked at on its own. So a
text without a comma and one with several are told apart before any bound is read, and a text
with one comma is decided by its two bounds. The conversion of a bound only fails for its number
of digits, which the text shows whatever integer it denotes; the bounds of an interval are short,
so its own text is read back. -/

namespace ReversePolish

namespace IntervalLiteral

variable {cs s e : List Char} {n : Nat}

/-! ## The comma -/

theorem bne_comma_of_not_mem (hs : ',' ∉ s) : ∀ c ∈ s, (c != ',') = true := by
  intro c hc
  rw [bne_iff_ne]
  rintro rfl
  exact hs hc

theorem takeWhile_bne_comma (hs : ',' ∉ s) : (s ++ ',' :: e).takeWhile (· != ',') = s := by
  rw [List.takeWhile_append_of_pos (bne_comma_of_not_mem hs)]
  exact List.append_nil s

theorem dropWhile_bne_comma (hs : ',' ∉ s) : (s ++ ',' :: e).dropWhile (· != ',') = ',' :: e := by
  rw [List.dropWhile_append_of_pos (bne_comma_of_not_mem hs)]
  rfl

theorem read_of_not_mem (h : ',' ∉ cs) : read cs = .error (.format .missingComma) := by
  have hnil : (cs ++ []).dropWhile (· != ',') = [] :=
    List.dropWhile_append_of_pos (bne_comma_of_not_mem h)
  rw [List.append_nil] at hnil
  rw [read, hnil]

theorem read_of_mem (hs : ',' ∉ s) (he : ',' ∈ e) :
    read (s ++ ',' :: e) = .error (.format .moreThanOneComma) := by
  rw [read, dropWhile_bne_comma hs]
  exact if_pos (List.contains_iff_mem.2 he)

theorem read_of_comma (hs : ',' ∉ s) (he : ',' ∉ e) : read (s ++ ',' :: e) = ofTexts s e := by
  rw [read, dropWhile_bne_comma hs, takeWhile_bne_comma hs]
  exact if_neg (by rwa [List.contains_iff_mem])

/-- A text has no comma, or several, or is two bounds with a comma between them. -/
theorem read_cases (cs : List Char) :
    (',' ∉ cs ∧ read cs = .error (.format .missingComma)) ∨
      (∃ s e, cs = s ++ ',' :: e ∧ ',' ∉ s ∧ ',' ∈ e ∧
        read cs = .error (.format .moreThanOneComma)) ∨
      ∃ s e, cs = s ++ ',' :: e ∧ ',' ∉ s ∧ ',' ∉ e ∧ read cs = ofTexts s e := by
  by_cases hcomma : ',' ∈ cs
  · obtain ⟨s, e, rfl, hs⟩ := List.eq_append_cons_of_mem hcomma
    by_cases he : ',' ∈ e
    · exact .inr (.inl ⟨s, e, rfl, hs, he, read_of_mem hs he⟩)
    · exact .inr (.inr ⟨s, e, rfl, hs, he, read_of_comma hs he⟩)
  · exact .inl ⟨hcomma, read_of_not_mem hcomma⟩

theorem comma_not_mem_of_isInteger (h : Decimal.isInteger s = true) : ',' ∉ s := by
  intro hmem
  have hcomma := Decimal.mem_of_isInteger h hmem
  revert hcomma
  decide

/-! ## The bounds -/

theorem ofTexts_of_isInteger (hs : Decimal.isInteger s = true) (he : Decimal.isInteger e = true) :
    ofTexts s e =
      (do
        let a ← convert s
        let b ← convert e
        ofIntegers a b) := by
  have hne : ∀ cs : List Char, Decimal.isInteger cs = true → cs.isEmpty = false := by
    intro cs h
    cases cs with
    | nil => cases h
    | cons c cs => rfl
  rw [ofTexts, if_neg (by simp [hne s hs, hne e he]), if_neg (by simp [hs, he])]

/-- The form of the bounds is looked at before they are converted. -/
theorem ofTexts_of_not_isInteger
    (h : ¬ (Decimal.isInteger s = true ∧ Decimal.isInteger e = true)) :
    ∃ fault, ofTexts s e = .error (.format fault) := by
  unfold ofTexts
  split
  · exact ⟨_, rfl⟩
  · split
    · exact ⟨_, rfl⟩
    · next hform =>
      exfalso
      simp only [Bool.or_eq_true, Bool.not_eq_true', not_or, Bool.not_eq_false] at hform
      exact h hform

/-- What is read as an interval is two integers with a comma between them. -/
theorem integers_of_read {i : Interval} (h : read cs = .ok i) :
    ∃ s e, cs = s ++ ',' :: e ∧ Decimal.isInteger s = true ∧ Decimal.isInteger e = true := by
  rcases read_cases cs with ⟨-, hread⟩ | ⟨s, e, -, -, -, hread⟩ | ⟨s, e, rfl, -, -, hread⟩
  · rw [hread] at h
    cases h
  · rw [hread] at h
    cases h
  · by_cases hintegers : Decimal.isInteger s = true ∧ Decimal.isInteger e = true
    · exact ⟨s, e, rfl, hintegers.1, hintegers.2⟩
    · obtain ⟨fault, hfault⟩ := ofTexts_of_not_isInteger hintegers
      rw [hread, hfault] at h
      cases h

/-! ## Bounds that are too long -/

/-- The number of digits that the conversion of a bound counts. -/
theorem length_splitSign_of_isInteger (h : Decimal.isInteger s = true) :
    (Decimal.splitSign s).2.length = s.countP Char.isDigit := by
  have hdigits : (Decimal.splitSign s).2.countP Char.isDigit = (Decimal.splitSign s).2.length :=
    List.countP_eq_length.2 (Decimal.isNumeral_iff.1 h).2
  rw [← hdigits]
  -- a sign in front is no digit
  unfold Decimal.splitSign
  split
  · rfl
  · rfl
  · rfl

theorem convert_of_lt (h : Decimal.isInteger s = true)
    (hlt : Decimal.maxDigits < s.countP Char.isDigit) :
    convert s = .error (.tooManyDigits (s.countP Char.isDigit)) := by
  rw [← length_splitSign_of_isInteger h] at hlt ⊢
  exact if_pos hlt

theorem convert_of_le (h : Decimal.isInteger s = true)
    (hle : s.countP Char.isDigit ≤ Decimal.maxDigits) : convert s = .ok (Decimal.intValue s) := by
  rw [← length_splitSign_of_isInteger h] at hle
  exact if_neg (Nat.not_lt.2 hle)

theorem ofIntegers_ne_tooManyDigits (a b : Int) : ofIntegers a b ≠ .error (.tooManyDigits n) := by
  unfold ofIntegers
  split
  · split <;> simp
  · simp

/-- Two integers with a comma between them, the first of which that is too long to be converted
    has `n` digits. -/
inductive Overlong (n : Nat) : List Char → Prop where
  | start {s e : List Char} (start_integer : Decimal.isInteger s = true)
      (stop_integer : Decimal.isInteger e = true) (count : s.countP Char.isDigit = n)
      (lt : Decimal.maxDigits < n) : Overlong n (s ++ ',' :: e)
  | stop {s e : List Char} (start_integer : Decimal.isInteger s = true)
      (stop_integer : Decimal.isInteger e = true)
      (start_le : s.countP Char.isDigit ≤ Decimal.maxDigits) (count : e.countP Char.isDigit = n)
      (lt : Decimal.maxDigits < n) : Overlong n (s ++ ',' :: e)

theorem Overlong.read_eq (h : Overlong n cs) : read cs = .error (.tooManyDigits n) := by
  cases h with
  | start hs he count lt =>
    subst count
    rw [read_of_comma (comma_not_mem_of_isInteger hs) (comma_not_mem_of_isInteger he),
      ofTexts_of_isInteger hs he, convert_of_lt hs lt, error_bind]
  | stop hs he hle count lt =>
    subst count
    rw [read_of_comma (comma_not_mem_of_isInteger hs) (comma_not_mem_of_isInteger he),
      ofTexts_of_isInteger hs he, convert_of_le hs hle, ok_bind, convert_of_lt he lt, error_bind]

theorem overlong_of_ofTexts (h : ofTexts s e = .error (.tooManyDigits n)) :
    Overlong n (s ++ ',' :: e) := by
  by_cases hintegers : Decimal.isInteger s = true ∧ Decimal.isInteger e = true
  · obtain ⟨hs, he⟩ := hintegers
    rw [ofTexts_of_isInteger hs he] at h
    rcases Nat.lt_or_ge Decimal.maxDigits (s.countP Char.isDigit) with hlt | hle
    · rw [convert_of_lt hs hlt] at h
      cases h
      exact .start hs he rfl hlt
    · rw [convert_of_le hs hle, ok_bind] at h
      rcases Nat.lt_or_ge Decimal.maxDigits (e.countP Char.isDigit) with hlt | hle'
      · rw [convert_of_lt he hlt] at h
        cases h
        exact .stop hs he hle rfl hlt
      · rw [convert_of_le he hle', ok_bind] at h
        exact absurd h (ofIntegers_ne_tooManyDigits _ _)
  · obtain ⟨fault, hfault⟩ := ofTexts_of_not_isInteger hintegers
    rw [hfault] at h
    cases h

/-- The number of digits is the failure of a literal exactly when a bound is too long. -/
theorem read_eq_tooManyDigits_iff : read cs = .error (.tooManyDigits n) ↔ Overlong n cs := by
  refine ⟨fun h => ?_, Overlong.read_eq⟩
  rcases read_cases cs with ⟨-, hread⟩ | ⟨s, e, -, -, -, hread⟩ | ⟨s, e, rfl, -, -, hread⟩
  · rw [hread] at h
    cases h
  · rw [hread] at h
    cases h
  · rw [hread] at h
    exact overlong_of_ofTexts h

/-! ## Intervals are read back -/

theorem convert_intDigits {i : Int} (hmin : minBound ≤ i) (hmax : i ≤ maxBound) :
    convert (Decimal.intDigits i) = .ok i := by
  have hlt : i.natAbs < 10 ^ 10 := by
    unfold minBound at hmin
    unfold maxBound at hmax
    omega
  have hlength := Decimal.length_digits_le (by decide) hlt
  have hshort : ¬ Decimal.maxDigits < (Decimal.digits i.natAbs).length := by
    unfold Decimal.maxDigits
    omega
  simp only [convert, Decimal.splitSign_intDigits, if_neg hshort, Decimal.intValue_intDigits]

theorem ofIntegers_eq_ok (i : Interval) : ofIntegers i.lower i.upper = .ok i := by
  have hmin := i.minBound_le
  have hle := i.lower_le_upper
  have hmax := i.le_maxBound
  have hrange : (inRange i.lower && inRange i.upper) = true := by
    simp only [inRange, Bool.and_eq_true, decide_eq_true_eq]
    omega
  rw [ofIntegers, if_pos hrange, Interval.ofBounds?_eq_some_iff.2 ⟨rfl, rfl⟩]

theorem ofTexts_intDigits (i : Interval) :
    ofTexts (Decimal.intDigits i.lower) (Decimal.intDigits i.upper) = .ok i := by
  have hmin := i.minBound_le
  have hle := i.lower_le_upper
  have hmax := i.le_maxBound
  rw [ofTexts_of_isInteger (Decimal.isInteger_intDigits _) (Decimal.isInteger_intDigits _),
    convert_intDigits hmin (by omega), convert_intDigits (by omega) hmax, ok_bind, ok_bind,
    ofIntegers_eq_ok]

theorem read_chars (i : Interval) : read i.chars = .ok i := by
  have hcomma : ∀ j, ',' ∉ Decimal.intDigits j := fun j =>
    comma_not_mem_of_isInteger (Decimal.isInteger_intDigits j)
  rw [Interval.chars, read_of_comma (hcomma _) (hcomma _), ofTexts_intDigits]

end IntervalLiteral

end ReversePolish
