import ReversePolish.Proofs.Diagnosis
import ReversePolish.Proofs.LiteralText

set_option autoImplicit false

/-! # Attempts at reading

An attempt should never fail: it comes to an expression or to an issue that tells the error of
syntax. It does so unless the first token that does not fit is an interval with a bound too long
to be converted; the failure of the conversion is no error of syntax, and nothing turns it into
one. Numbers have no such limit. -/

namespace ReversePolish

variable {d : Domain}

/-! ## Definitions -/

/-- The outcome tells what reading comes to: its expression and no issue, or no expression and an
    issue with the kind, the wording and the details of its error. -/
inductive Expression.Outcome.Tells (o : Expression.Outcome) :
    Except ReadingFailure Expression → Prop where
  | expression {e : Expression} (ok_eq : o.ok = true) (tree_eq : o.tree? = some e)
      (issue_eq : o.issue? = none) : o.Tells (.ok e)
  | issue {f : SyntaxError} {i : SyntaxError.Issue} (ok_eq : o.ok = false)
      (tree_eq : o.tree? = none) (issue_eq : o.issue? = some i) (kind_eq : i.kind = f.kind)
      (message_eq : i.message = f.message) (token_eq : i.token? = f.token?)
      (position_eq : i.position? = f.position?) (remaining_eq : i.remaining? = f.remaining?) :
      o.Tells (.error (.syntaxError f))

/-- Reading stops at an interval with a bound of `n` digits, which are too many to be
    converted. -/
def StopsAtOverlong (d : Domain) (text : Option String) (n : Nat) : Prop :=
  d = .interval ∧
    ∃ t p token, text = some t ∧ (tokenize t)[p]? = some token ∧
      IntervalLiteral.Overlong n token.toList ∧ ∀ q < p, ¬ Misfit d (tokenize t) q

/-! ## Literals that are too long -/

theorem readLiteral_eq_tooManyDigits_iff {token : String} {position n : Nat} :
    readLiteral d token position = .error (.tooManyDigits n) ↔
      d = .interval ∧ IntervalLiteral.Overlong n token.toList := by
  cases d with
  | arithmetic =>
    refine iff_of_false (fun h => ?_) (fun h => Domain.noConfusion h.1)
    simp only [readLiteral, readNumber] at h
    split at h <;> simp at h
  | interval =>
    rw [← IntervalLiteral.read_eq_tooManyDigits_iff]
    simp only [readLiteral, readInterval, true_and]
    split
    all_goals
      next h => simp [h]

theorem not_mem_symbolsOf_of_overlong {token : String} {n : Nat}
    (h : IntervalLiteral.Overlong n token.toList) : token ∉ Operator.symbolsOf d := by
  intro hmem
  obtain ⟨op, -, rfl⟩ := Operator.mem_symbolsOf_iff.1 hmem
  have hread := h.read_eq
  rw [IntervalLiteral.read_symbol] at hread
  cases hread

theorem diagnosis_tooManyDigits_iff {text : Option String} {n : Nat} :
    Diagnosis d text (.tooManyDigits n) ↔ StopsAtOverlong d text n := by
  constructor
  · intro h
    cases h with
    | illegible first token_at not_operator fails =>
      obtain ⟨hd, hlong⟩ := readLiteral_eq_tooManyDigits_iff.1 fails
      exact ⟨hd, _, _, _, rfl, token_at, hlong, first.2⟩
  · rintro ⟨hd, t, p, token, rfl, htoken, hlong, hbefore⟩
    have hop : token ∉ Operator.symbolsOf d := not_mem_symbolsOf_of_overlong hlong
    have hfails : readLiteral d token p = .error (.tooManyDigits n) :=
      readLiteral_eq_tooManyDigits_iff.2 ⟨hd, hlong⟩
    have hmisfit : Misfit d (tokenize t) p := ⟨token, htoken, .inr ⟨hop, _, hfails⟩⟩
    exact .illegible ⟨hmisfit, hbefore⟩ htoken hop hfails

/-! ## Attempts -/

namespace Expression

theorem attempt_eq_error_iff_read? {text : Option String} {n : Nat} :
    attempt d text = .error n ↔ read? d text = .error (.tooManyDigits n) := by
  unfold attempt
  split
  all_goals
    next h => simp [h]

theorem attempt_eq_error_iff {text : Option String} {n : Nat} :
    attempt d text = .error n ↔ StopsAtOverlong d text n := by
  rw [attempt_eq_error_iff_read?, ← diagnosis_tooManyDigits_iff]
  refine ⟨fun h => ?_, Diagnosis.read?_eq⟩
  cases text with
  | none => cases h
  | some t => exact .of_read h

/-- An outcome tells what reading comes to. -/
theorem tells_of_attempt {text : Option String} {o : Outcome} (h : attempt d text = .ok o) :
    o.Tells (read? d text) := by
  unfold attempt at h
  split at h
  · next e he =>
    cases h
    rw [he]
    exact .expression rfl rfl rfl
  · next f hf =>
    cases h
    rw [hf]
    exact .issue rfl rfl rfl rfl rfl rfl rfl rfl
  · cases h

end Expression

/-- An attempt comes to an outcome that tells what reading does, exactly where reading does not
    stop at a bound that is too long; there it fails with the number of digits. -/
theorem attempt_tells_iff_not_stopsAtOverlong (d : Domain) (text : Option String) :
    ((∃ o, Expression.attempt d text = .ok o ∧ o.Tells (Expression.read? d text)) ↔
        ∀ n, ¬ StopsAtOverlong d text n) ∧
      ∀ n, Expression.attempt d text = .error n ↔ StopsAtOverlong d text n := by
  refine ⟨?_, fun n => Expression.attempt_eq_error_iff⟩
  constructor
  · rintro ⟨o, ho, -⟩ n hn
    rw [Expression.attempt_eq_error_iff.2 hn] at ho
    cases ho
  · intro hnone
    cases h : Expression.attempt d text with
    | ok o => exact ⟨o, rfl, Expression.tells_of_attempt h⟩
    | error n => exact absurd (Expression.attempt_eq_error_iff.1 h) (hnone n)

/-! ## An interval that is too long -/

/-- An interval whose first bound is written with `n` ones. -/
def onesInterval (n : Nat) : String :=
  String.ofList (List.replicate n '1' ++ [',', '2'])

theorem toList_onesInterval (n : Nat) :
    (onesInterval n).toList = List.replicate n '1' ++ [',', '2'] :=
  String.toList_ofList

theorem overlong_onesInterval {n : Nat} (hn : Decimal.maxDigits < n) :
    IntervalLiteral.Overlong n (onesInterval n).toList := by
  have hdigits : ∀ c ∈ List.replicate n '1', c.isDigit = true := by
    intro c hc
    rw [List.eq_of_mem_replicate hc]
    rfl
  have hne : List.replicate n '1' ≠ [] := by
    rw [Ne, List.replicate_eq_nil_iff]
    omega
  have hcount : (List.replicate n '1').countP Char.isDigit = n := by
    rw [List.countP_replicate]
    rfl
  rw [toList_onesInterval]
  exact .start (Decimal.isInteger_of_isDigit hne hdigits) rfl hcount hn

theorem tokenize_onesInterval (n : Nat) : tokenize (onesInterval n) = [onesInterval n] := by
  refine tokenize_of_not_blank ?_ fun c hc => ?_
  · simp [toList_onesInterval]
  · rw [toList_onesInterval, List.mem_append, List.mem_replicate, List.mem_pair] at hc
    rcases hc with ⟨-, rfl⟩ | rfl | rfl
    all_goals rfl

theorem attempt_onesInterval {n : Nat} (hn : Decimal.maxDigits < n) :
    Expression.attempt .interval (some (onesInterval n)) = .error n := by
  have hfirst : (tokenize (onesInterval n))[0]? = some (onesInterval n) := by
    rw [tokenize_onesInterval]
    rfl
  refine Expression.attempt_eq_error_iff.2
    ⟨rfl, onesInterval n, 0, onesInterval n, rfl, hfirst, overlong_onesInterval hn, ?_⟩
  intro q hq
  exact absurd hq (Nat.not_lt_zero q)

/-- With 4301 digits there is no outcome. -/
theorem attempt_onesInterval_4301 :
    Expression.attempt .interval (some (onesInterval 4301)) = .error 4301 ∧
      ¬ ∃ o, Expression.attempt .interval (some (onesInterval 4301)) = .ok o := by
  have hfails := attempt_onesInterval (n := 4301) (by decide)
  refine ⟨hfails, ?_⟩
  rintro ⟨o, ho⟩
  rw [hfails] at ho
  cases ho

end ReversePolish
