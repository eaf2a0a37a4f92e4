import ReversePolish.Proofs.Attempt
import ReversePolish.Proofs.Edges

set_option autoImplicit false

/-! # Reading a trimmed text

Reading takes off the blanks around a text. Some texts are trimmed of every space before, and there
are more spaces than blanks. A space that is no blank belongs to a token, and no token with a space
in it can be read. So it comes to the same to read the text as it is, unless reading fails at a
token that trimming changes. -/

namespace ReversePolish

variable {d : Domain} {text : String}

/-! ## Definitions -/

/-- The text is trimmed of spaces without consequence: they are all blanks, or reading stops at a
    token in front of which, and in which, nothing is trimmed. -/
def TrimmedAlike (d : Domain) (text : String) : Prop :=
  trimText isSpace text = trimText isBlank text ∨
    ∃ p, Misfit d (tokenize text) p ∧
      (tokenize (trimText isSpace text)).take (p + 1) = (tokenize text).take (p + 1)

/-! ## Spaces and tokens -/

theorem isSpace_of_isBlank {c : Char} (h : isBlank c = true) : isSpace c = true :=
  isSpace_of_isWhiteSpace (isWhiteSpace_of_isBlank h)

/-- The code points that a character of a literal has. -/
theorem toNat_of_isLiteralChar {c : Char} (h : isLiteralChar c = true) :
    0x20 < c.toNat ∧ c.toNat < 0x80 := by
  simp only [isLiteralChar, isNumberChar, Bool.or_eq_true, List.contains_iff_mem, List.mem_cons,
    List.not_mem_nil, or_false, beq_iff_eq] at h
  rcases h with (hdigit | rfl | rfl | rfl | rfl | rfl) | rfl
  · simp only [Char.isDigit, Bool.and_eq_true, decide_eq_true_eq] at hdigit
    have hge : 48 ≤ c.val.toNat := UInt32.le_iff_toNat_le.1 hdigit.1
    have hle : c.val.toNat ≤ 57 := UInt32.le_iff_toNat_le.1 hdigit.2
    exact ⟨by simp only [Char.toNat]; omega, by simp only [Char.toNat]; omega⟩
  all_goals decide

theorem isSpace_of_isLiteralChar {c : Char} (h : isLiteralChar c = true) : isSpace c = false := by
  obtain ⟨hlow, hhigh⟩ := toNat_of_isLiteralChar h
  have hne : ∀ e : Char, e.toNat ≤ 0x20 ∨ 0x80 ≤ e.toNat → (c == e) = false := by
    intro e he
    rw [beq_eq_false_iff_ne]
    rintro rfl
    omega
  rw [isSpace, isWhiteSpace, isBlank_of_isLiteralChar h, hne _ (by decide), hne _ (by decide),
    hne _ (by decide), hne _ (by decide), hne _ (by decide), hne _ (by decide), hne _ (by decide),
    hne _ (by decide)]
  simp only [Bool.false_or, Bool.or_false, Bool.or_eq_false_iff, Bool.and_eq_false_iff,
    decide_eq_false_iff_not]
  omega

theorem isSpace_of_readLiteral {token : String} {position : Nat} {l : Literal}
    (h : readLiteral d token position = .ok l) : ∀ c ∈ token.toList, isSpace c = false :=
  fun c hc => isSpace_of_isLiteralChar (isLiteralChar_of_readLiteral h c hc)

theorem isSpace_of_mem_symbolsOf {token : String} (h : token ∈ Operator.symbolsOf d) :
    ∀ c ∈ token.toList, isSpace c = false := by
  obtain ⟨op, -, rfl⟩ := Operator.mem_symbolsOf_iff.1 h
  rw [Operator.symbol, String.toList_ofList, List.forall_mem_singleton]
  cases op <;> decide

theorem isSpace_of_overlong {n : Nat} {cs : List Char} (h : IntervalLiteral.Overlong n cs) :
    ∀ c ∈ cs, isSpace c = false := by
  have hpair : ∀ s e : List Char, Decimal.isInteger s = true → Decimal.isInteger e = true →
      ∀ c ∈ s ++ ',' :: e, isLiteralChar c = true := by
    intro s e hs he c hc
    rcases List.mem_append.1 hc with hc | hc
    · exact isLiteralChar_of_isNumberChar (isNumberChar_of_isInteger hs hc)
    · rcases List.mem_cons.1 hc with rfl | hc
      · rfl
      · exact isLiteralChar_of_isNumberChar (isNumberChar_of_isInteger he hc)
  intro c hc
  cases h with
  | start hs he => exact isSpace_of_isLiteralChar (hpair _ _ hs he c hc)
  | stop hs he => exact isSpace_of_isLiteralChar (hpair _ _ hs he c hc)

/-- A token that fits has no space in it. -/
theorem isSpace_of_not_misfit {ts : List String} {p : Nat} {token : String}
    (h : ¬ Misfit d ts p) (htoken : ts[p]? = some token) :
    ∀ c ∈ token.toList, isSpace c = false := by
  by_cases hop : token ∈ Operator.symbolsOf d
  · exact isSpace_of_mem_symbolsOf hop
  · cases hread : readLiteral d token p with
    | ok l => exact isSpace_of_readLiteral hread
    | error f => exact absurd ⟨token, htoken, .inr ⟨hop, f, hread⟩⟩ h

/-- The tokens up to one without a space have no space if those before it fit. -/
theorem isSpace_of_mem_take {ts : List String} {k : Nat}
    (hfit : ∀ q < k, ¬ Misfit d ts q) :
    ∀ token ∈ ts.take k, ∀ c ∈ token.toList, isSpace c = false := by
  intro token htoken
  obtain ⟨q, hq⟩ := List.mem_iff_getElem?.1 htoken
  have hlt : q < k := by
    have := (List.getElem?_eq_some_iff.1 hq).1
    rw [List.length_take] at this
    omega
  rw [List.getElem?_take_of_lt hlt] at hq
  exact isSpace_of_not_misfit (hfit q hlt) hq

theorem trimText_isSpace_eq (h : ∀ p, ¬ Misfit d (tokenize text) p) :
    trimText isSpace text = trimText isBlank text := by
  refine trimText_eq_trimText_isBlank (fun _ => isSpace_of_isBlank) fun token htoken => ?_
  obtain ⟨q, hq⟩ := List.mem_iff_getElem?.1 htoken
  exact isSpace_of_not_misfit (h q) hq

/-! ## Reading -/

theorem read_trimText_isBlank (d : Domain) (text : String) :
    Expression.read d (trimText isBlank text) = Expression.read d text := by
  unfold Expression.read
  rw [tokenize_trimText_isBlank, trimText_trimText]

theorem readLiteral_eq_error {token : String} {p : Nat} {f : ReadingFailure}
    (h : readLiteral d token p = .error f) :
    (∃ cause, f = .syntaxError (.badLiteral cause token p)) ∨ ∃ n, f = .tooManyDigits n := by
  cases d with
  | arithmetic =>
    simp only [readLiteral, readNumber] at h
    split at h
    · exact .inl ⟨_, (Except.error.inj h).symm⟩
    · cases h
    · exact .inl ⟨_, (Except.error.inj h).symm⟩
  | interval =>
    simp only [readLiteral, readInterval] at h
    split at h
    · cases h
    · exact .inl ⟨_, (Except.error.inj h).symm⟩
    · exact .inl ⟨_, (Except.error.inj h).symm⟩
    · exact .inr ⟨_, (Except.error.inj h).symm⟩

/-- A literal that is refused at a place is the token there. -/
theorem token_of_badLiteral {cause : LiteralError} {token : String} {p : Nat}
    (h : Expression.read d text = .error (.syntaxError (.badLiteral cause token p))) :
    (tokenize text)[p]? = some token := by
  cases Diagnosis.of_read h with
  | illegible first token_at not_operator fails =>
    rcases readLiteral_eq_error fails with ⟨cause', hcause⟩ | ⟨n, hn⟩
    · cases hcause
      exact token_at
    · cases hn

/-- The failure of the first tokens is the failure of the text. -/
theorem read_of_take {k : Nat} {f : ReadingFailure}
    (h : readTokens d 0 ((tokenize text).take k) [] = .error f) :
    Expression.read d text = .error f := by
  refine read_eq_error_iff.2 (.inr ⟨?_, readTree_of_error ?_⟩)
  · intro hnil
    rw [hnil, List.take_nil] at h
    cases h
  · rw [← List.take_append_drop k (tokenize text), readTokens_append, h, error_bind]

theorem exists_readTokens_take {ts : List String} {p : Nat} (h : Misfit d ts p) :
    ∃ f, readTokens d 0 (ts.take (p + 1)) [] = .error f := by
  have hlt := misfit_lt_length h
  have hmisfit : Misfit d (ts.take (p + 1)) p := by
    rw [← List.take_append_drop (p + 1) ts] at h
    exact (misfit_append_iff (by rw [List.length_take]; omega)).1 h
  cases hread : readTokens d 0 (ts.take (p + 1)) [] with
  | error f => exact ⟨f, rfl⟩
  | ok stack => exact absurd hmisfit (readTokens_eq_ok_iff.1 ⟨stack, hread⟩ p)

theorem read_of_trimmedAlike (h : TrimmedAlike d text) :
    Expression.read d (trimText isSpace text) = Expression.read d text := by
  rcases h with hsame | ⟨p, hmisfit, htake⟩
  · rw [hsame, read_trimText_isBlank]
  · obtain ⟨f, hf⟩ := exists_readTokens_take hmisfit
    rw [read_of_take hf, read_of_take (htake.symm ▸ hf)]

/-- Where trimming has a consequence, the text fails at a token with a space in it, and this token
    is not at its place in the trimmed text. -/
theorem badLiteral_of_not_trimmedAlike (h : ¬ TrimmedAlike d text) :
    ∃ cause token p,
      Expression.read d text = .error (.syntaxError (.badLiteral cause token p)) ∧
        (∃ c ∈ token.toList, isSpace c = true) ∧
        (tokenize (trimText isSpace text))[p]? ≠ some token := by
  have hnot : ∃ p, Misfit d (tokenize text) p := by
    by_contra hfit
    exact h (.inl (trimText_isSpace_eq (not_exists.1 hfit)))
  obtain ⟨q, hq⟩ := hnot
  obtain ⟨p, first⟩ := exists_firstMisfit hq
  have hbefore := isSpace_of_mem_take first.2
  obtain ⟨token, stack, f, htoken, -, hstep, hall⟩ := readTokens_of_firstMisfit first
  have hread : Expression.read d text = .error f :=
    read_eq_error_iff.2 (.inr ⟨tokenize_ne_nil_of_misfit hq, readTree_of_error hall⟩)
  have hspace : ∃ c ∈ token.toList, isSpace c = true := by
    by_contra hfree
    simp only [not_exists, not_and, Bool.not_eq_true] at hfree
    refine h (.inr ⟨p, first.1, take_tokenize_trimText ?_⟩)
    rw [List.take_add_one, htoken]
    exact List.forall_mem_append.2 ⟨hbefore, List.forall_mem_singleton.2 hfree⟩
  have hfails : readLiteral d token p = .error f := by
    rcases readToken_eq_error_iff.1 hstep with ⟨hop, -, -⟩ | ⟨-, hfails⟩
    · exact absurd (isSpace_of_mem_symbolsOf hop) (by simpa using hspace)
    · exact hfails
  -- the same tokens stand before the one that is refused
  have hplace : (tokenize (trimText isSpace text))[p]? ≠ some token := by
    intro hsame
    refine h (.inr ⟨p, first.1, ?_⟩)
    rw [List.take_add_one, List.take_add_one, hsame, htoken, take_tokenize_trimText hbefore]
  rcases readLiteral_eq_error hfails with ⟨cause, rfl⟩ | ⟨n, rfl⟩
  · exact ⟨cause, token, p, hread, hspace, hplace⟩
  · obtain ⟨-, hlong⟩ := readLiteral_eq_tooManyDigits_iff.1 hfails
    exact absurd (isSpace_of_overlong hlong) (by simpa using hspace)

end ReversePolish
