import ReversePolish.Decimal

set_option autoImplicit false

/-! # Laws of numerals

Digits are read from the left, each one multiplying what is already there by ten. So a numeral
can be cut anywhere, zeros in front of it do not count, and zeros behind it are powers of ten. An
integer that is written in decimal is read back. -/

namespace ReversePolish

attribute [local instance] corePow

namespace Decimal

/-! ## The value of digits -/

theorem value_append (cs ds : List Char) :
    value (cs ++ ds) = value cs * 10 ^ ds.length + value ds := by
  unfold value
  rw [Nat.ofDigitChars_append, Nat.ofDigitChars_eq_ofDigitChars_zero, Nat.mul_comm]

@[simp] theorem value_replicate_zero (n : Nat) : value (List.replicate n '0') = 0 := by
  rw [value, Nat.ofDigitChars_replicate_zero, Nat.mul_zero]

theorem value_zeros_append (n : Nat) (cs : List Char) :
    value (List.replicate n '0' ++ cs) = value cs := by
  rw [value_append, value_replicate_zero, Nat.zero_mul, Nat.zero_add]

theorem value_append_zeros (cs : List Char) (n : Nat) :
    value (cs ++ List.replicate n '0') = value cs * 10 ^ n := by
  rw [value_append, value_replicate_zero, List.length_replicate, Nat.add_zero]

/-! ## Texts of digits -/

theorem digits_ne_nil (n : Nat) : digits n ≠ [] :=
  Nat.toDigits_ne_nil

theorem isDigit_of_mem_digits {n : Nat} {c : Char} (h : c ∈ digits n) : c.isDigit = true :=
  Nat.isDigit_of_mem_toDigits (by decide) (by decide) h

theorem isDigit_of_mem_zeros {n : Nat} : ∀ c ∈ List.replicate n '0', c.isDigit = true := by
  intro c hc
  rw [List.eq_of_mem_replicate hc]
  rfl

theorem isDigit_of_mem_zero : ∀ c ∈ ['0'], c.isDigit = true :=
  List.forall_mem_singleton.2 rfl

theorem isNumeral_iff {cs : List Char} :
    isNumeral cs = true ↔ cs ≠ [] ∧ ∀ c ∈ cs, c.isDigit = true := by
  simp only [isNumeral, Bool.and_eq_true, Bool.not_eq_true', List.isEmpty_eq_false_iff,
    List.all_eq_true]

theorem length_digits_le {n k : Nat} (hk : 0 < k) (h : n < 10 ^ k) : (digits n).length ≤ k :=
  (Nat.length_toDigits_le_iff (by decide) hk).2 h

theorem pow_le_of_lt_length {n k : Nat} (hn : n ≠ 0) (h : k < (digits n).length) : 10 ^ k ≤ n := by
  rcases Nat.eq_zero_or_pos k with rfl | hk
  · exact Nat.pos_of_ne_zero hn
  · exact Nat.le_of_not_lt fun hlt => Nat.not_le_of_lt h (length_digits_le hk hlt)

/-- Only zero starts with a zero. -/
theorem digits_of_head? {n : Nat} (h : (digits n).head? = some '0') : digits n = ['0'] := by
  induction n using Nat.strongRecOn with
  | ind n ih =>
    rcases Nat.lt_or_ge n 10 with hlt | hge
    · rw [digits, Nat.toDigits_of_lt_base hlt] at h ⊢
      rw [Option.some.inj h]
    · -- the digits in front of the last one are those of a number that is not zero
      have hsplit : digits n = digits (n / 10) ++ [(n % 10).digitChar] :=
        Nat.toDigits_of_base_le (by decide) hge
      obtain ⟨c, cs, hcs⟩ := List.exists_cons_of_ne_nil (digits_ne_nil (n / 10))
      rw [hsplit, hcs] at h
      have hfront := ih (n / 10) (by omega) (by rw [hcs]; exact h)
      have hvalue := value_digits (n / 10)
      rw [hfront] at hvalue
      have hzero : value ['0'] = 0 := rfl
      omega

/-! ## Integers -/

/-- A text that starts with a digit starts with no sign. -/
theorem splitSign_of_isDigit {c : Char} (h : c.isDigit = true) (cs : List Char) :
    splitSign (c :: cs) = (false, c :: cs) := by
  unfold splitSign
  split
  · next hc => simp_all
  · next hc => simp_all
  · rfl

theorem splitSign_of_isNumeral {ds : List Char} (h : isNumeral ds = true) :
    splitSign ds = (false, ds) := by
  obtain ⟨hne, hds⟩ := isNumeral_iff.1 h
  obtain ⟨d, ds, rfl⟩ := List.exists_cons_of_ne_nil hne
  exact splitSign_of_isDigit (hds d List.mem_cons_self) ds

theorem isInteger_of_isDigit {cs : List Char} (hne : cs ≠ []) (h : ∀ c ∈ cs, c.isDigit = true) :
    isInteger cs = true := by
  have hcs : isNumeral cs = true := isNumeral_iff.2 ⟨hne, h⟩
  rw [isInteger, splitSign_of_isNumeral hcs, hcs]

theorem splitSign_digits (n : Nat) : splitSign (digits n) = (false, digits n) :=
  splitSign_of_isNumeral (isNumeral_digits n)

theorem splitSign_intDigits (i : Int) :
    splitSign (intDigits i) = (decide (i < 0), digits i.natAbs) := by
  unfold intDigits
  split
  · next hi => simp [splitSign, hi]
  · next hi => simp [splitSign_digits, hi]

theorem isInteger_intDigits (i : Int) : isInteger (intDigits i) = true := by
  rw [isInteger, splitSign_intDigits, isNumeral_digits]

theorem intValue_intDigits (i : Int) : intValue (intDigits i) = i := by
  simp only [intValue, splitSign_intDigits, value_digits, decide_eq_true_eq]
  split <;> omega

/-- Only a sign is taken off. -/
theorem mem_splitSign {c : Char} {cs : List Char} (hc : c ∈ cs) :
    c = '-' ∨ c = '+' ∨ c ∈ (splitSign cs).2 := by
  unfold splitSign
  split
  · rcases List.mem_cons.1 hc with hc | hc
    · exact .inl hc
    · exact .inr (.inr hc)
  · rcases List.mem_cons.1 hc with hc | hc
    · exact .inr (.inl hc)
    · exact .inr (.inr hc)
  · exact .inr (.inr hc)

theorem mem_of_isInteger {c : Char} {cs : List Char} (h : isInteger cs = true) (hc : c ∈ cs) :
    c = '-' ∨ c = '+' ∨ c.isDigit = true := by
  have hdigit := (isNumeral_iff.1 h).2 c
  exact (mem_splitSign hc).imp_right fun hc => hc.imp_right hdigit

end Decimal

end ReversePolish
