import Mathlib.Data.List.Induction
import Mathlib.Data.Nat.Find
import ReversePolish.Proofs.Postfix
import ReversePolish.Proofs.Tokens

set_option autoImplicit false

/-! # Why a text is no expression

The height of the stack is the number of operands minus the number of operators that have been
read, the *balance* of the tokens so far. So the failure of reading can be told from the tokens
alone, without a stack: it lies at the first token that is an operator where the balance is less
than two, or no literal; and where all tokens fit, it is the final balance that decides. A stack
that holds a tree is never emptied, so there is always a result. -/

namespace ReversePolish

variable {d : Domain}

/-! ## Definitions -/

/-- The number of operands minus the number of operators. -/
def balance (d : Domain) (ts : List String) : Int :=
  (ts.countP (· ∉ Operator.symbolsOf d) : Int) - ts.countP (· ∈ Operator.symbolsOf d)

/-- The token at the position does not fit: it is an operator with fewer than two operands to
    take, or it is neither an operator nor a literal. -/
def Misfit (d : Domain) (ts : List String) (position : Nat) : Prop :=
  ∃ token, ts[position]? = some token ∧
    (token ∈ Operator.symbolsOf d ∧ balance d (ts.take position) < 2 ∨
      token ∉ Operator.symbolsOf d ∧ ∃ f, readLiteral d token position = .error f)

/-- The position is that of the first token that does not fit. -/
def FirstMisfit (d : Domain) (ts : List String) (position : Nat) : Prop :=
  Misfit d ts position ∧ ∀ q < position, ¬ Misfit d ts q

/-- The failure that a text, or no text at all, calls for. -/
inductive Diagnosis (d : Domain) : Option String → ReadingFailure → Prop where
  | noText : Diagnosis d none (.syntaxError .emptyExpression)
  | blank {text : String} (all_blank : ∀ c ∈ text.toList, isBlank c = true) :
      Diagnosis d (some text) (.syntaxError .emptyExpression)
  | shortage {text token : String} {p n : Nat} (first : FirstMisfit d (tokenize text) p)
      (token_at : (tokenize text)[p]? = some token) (is_operator : token ∈ Operator.symbolsOf d)
      (balance_eq : balance d ((tokenize text).take p) = n) :
      Diagnosis d (some text) (.syntaxError (.insufficientOperands token p n))
  | illegible {text token : String} {p : Nat} {f : ReadingFailure}
      (first : FirstMisfit d (tokenize text) p) (token_at : (tokenize text)[p]? = some token)
      (not_operator : token ∉ Operator.symbolsOf d)
      (fails : readLiteral d token p = .error f) : Diagnosis d (some text) f
  | surplus {text : String} {n : Nat} (all_fit : ∀ p, ¬ Misfit d (tokenize text) p)
      (balance_eq : balance d (tokenize text) = n) (one_lt : 1 < n) :
      Diagnosis d (some text) (.syntaxError (.tooManyOperands n))

/-! ## The balance -/

@[simp] theorem balance_nil : balance d [] = 0 := rfl

theorem balance_append (ts us : List String) :
    balance d (ts ++ us) = balance d ts + balance d us := by
  simp only [balance, List.countP_append]
  omega

theorem balance_cons (token : String) (ts : List String) :
    balance d (token :: ts) = balance d [token] + balance d ts :=
  balance_append [token] ts

theorem balance_of_operator {token : String} (h : token ∈ Operator.symbolsOf d) :
    balance d [token] = -1 := by
  simp [balance, h]

theorem balance_of_operand {token : String} (h : token ∉ Operator.symbolsOf d) :
    balance d [token] = 1 := by
  simp [balance, h]

/-! ## The stack -/

/-- A token changes the height of the stack by its balance. -/
theorem length_readToken {position : Nat} {token : String} {stack stack' : List Expr}
    (h : readToken d position token stack = .ok stack') :
    (stack'.length : Int) = stack.length + balance d [token] := by
  rcases readToken_eq_ok_iff.1 h with ⟨op, left, right, rest, hop, rfl, rfl⟩ | ⟨l, hl, rfl⟩
  · rw [balance_of_operator hop.mem_symbolsOf]
    simp only [List.length_cons]
    omega
  · rw [balance_of_operand hl.not_mem_symbolsOf]
    simp only [List.length_cons]
    omega

theorem readToken_ne_nil {position : Nat} {token : String} {stack stack' : List Expr}
    (h : readToken d position token stack = .ok stack') : stack' ≠ [] := by
  rcases readToken_eq_ok_iff.1 h with ⟨op, left, right, rest, -, -, rfl⟩ | ⟨l, -, rfl⟩
  · exact List.cons_ne_nil _ _
  · exact List.cons_ne_nil _ _

/-- A token fails exactly as an operator without its operands or as an operand that is no
    literal. -/
theorem readToken_eq_error_iff {position : Nat} {token : String} {stack : List Expr}
    {f : ReadingFailure} :
    readToken d position token stack = .error f ↔
      (token ∈ Operator.symbolsOf d ∧ stack.length < 2 ∧
        f = .syntaxError (.insufficientOperands token position stack.length)) ∨
      (token ∉ Operator.symbolsOf d ∧ readLiteral d token position = .error f) := by
  by_cases hmem : token ∈ Operator.symbolsOf d
  · obtain ⟨op, hop⟩ := Operator.mem_symbolsOf_iff.1 hmem
    have hlook := Operator.ofSymbolIn?_eq_some_iff.2 hop
    match stack with
    | right :: left :: rest =>
      rw [readToken_of_operator hlook]
      simp [hmem]
    | [] | [_] =>
      rw [readToken_of_length_lt hlook (by simp)]
      simp [hmem, eq_comm]
  · rw [readToken_of_literal (Operator.ofSymbolIn?_eq_none_iff.2 hmem)]
    cases readLiteral d token position <;> simp [hmem, Except.map]

/-- The step lemma, over all tokens: the height of the stack grows by the balance, and a stack
    that is not empty stays so. -/
theorem length_readTokens {ts : List String} {position : Nat} {stack stack' : List Expr}
    (h : readTokens d position ts stack = .ok stack') :
    (stack'.length : Int) = stack.length + balance d ts ∧ (ts ≠ [] → stack' ≠ []) := by
  induction ts generalizing position stack with
  | nil =>
    cases h
    simp
  | cons t ts ih =>
    rw [readTokens] at h
    obtain ⟨mid, hstep, hrest⟩ := bind_eq_ok_iff.1 h
    obtain ⟨hlen, hne⟩ := ih hrest
    constructor
    · rw [hlen, length_readToken hstep, balance_cons t ts]
      omega
    · intro _
      cases ts with
      | nil =>
        cases hrest
        exact readToken_ne_nil hstep
      | cons u us => exact hne (List.cons_ne_nil _ _)

/-! ## The first misfit -/

/-- Where the tokens before have been read, a token is a misfit if it fails on their stack. -/
theorem misfit_iff_readToken {pre post : List String} {token : String} {stack : List Expr}
    (h : readTokens d 0 pre [] = .ok stack) :
    Misfit d (pre ++ token :: post) pre.length ↔
      ∃ f, readToken d pre.length token stack = .error f := by
  have hlen := (length_readTokens h).1
  simp only [Misfit, List.getElem?_append_right (Nat.le_refl _), Nat.sub_self,
    List.getElem?_cons_zero, Option.some.injEq, exists_eq_left', List.take_left,
    readToken_eq_error_iff]
  rw [List.length_nil, Int.natCast_zero, Int.zero_add] at hlen
  rw [← hlen]
  constructor
  · rintro (⟨hop, hlt⟩ | ⟨hop, f, hf⟩)
    · exact ⟨_, .inl ⟨hop, by omega, rfl⟩⟩
    · exact ⟨f, .inr ⟨hop, hf⟩⟩
  · rintro ⟨f, ⟨hop, hlt, -⟩ | ⟨hop, hf⟩⟩
    · exact .inl ⟨hop, by omega⟩
    · exact .inr ⟨hop, f, hf⟩

/-- Whether a token is a misfit does not depend on what follows it. -/
theorem misfit_append_iff {ts us : List String} {p : Nat} (hp : p < ts.length) :
    Misfit d (ts ++ us) p ↔ Misfit d ts p := by
  have htake : (ts ++ us).take p = ts.take p := List.take_append_of_le_length (Nat.le_of_lt hp)
  rw [Misfit, Misfit, List.getElem?_append_left hp, htake]

theorem misfit_lt_length {ts : List String} {p : Nat} (h : Misfit d ts p) : p < ts.length := by
  obtain ⟨token, hp, -⟩ := h
  exact (List.getElem?_eq_some_iff.1 hp).1

/-- Tokens are read through exactly when all of them fit. -/
theorem readTokens_eq_ok_iff {ts : List String} :
    (∃ stack, readTokens d 0 ts [] = .ok stack) ↔ ∀ p, ¬ Misfit d ts p := by
  induction ts using List.reverseRecOn with
  | nil =>
    refine iff_of_true ⟨[], rfl⟩ fun p hp => ?_
    exact absurd (misfit_lt_length hp) (Nat.not_lt_zero p)
  | append_singleton ts t ih =>
    constructor
    · rintro ⟨stack, hstack⟩ p hp
      rw [readTokens_append] at hstack
      obtain ⟨mid, hts, hlast⟩ := bind_eq_ok_iff.1 hstack
      have hlt := misfit_lt_length hp
      rw [List.length_append, List.length_singleton] at hlt
      rcases Nat.lt_succ_iff_lt_or_eq.1 hlt with hlt | rfl
      · exact ih.1 ⟨mid, hts⟩ p ((misfit_append_iff hlt).1 hp)
      · obtain ⟨f, hf⟩ := (misfit_iff_readToken hts).1 hp
        rw [Nat.zero_add, readTokens, hf] at hlast
        cases hlast
    · intro hfit
      have hbefore : ∀ p, ¬ Misfit d ts p := by
        intro p hp
        exact hfit p ((misfit_append_iff (misfit_lt_length hp)).2 hp)
      obtain ⟨mid, hts⟩ := ih.2 hbefore
      rw [readTokens_append, hts]
      cases hstep : readToken d ts.length t mid with
      | error f => exact absurd ((misfit_iff_readToken hts).2 ⟨f, hstep⟩) (hfit _)
      | ok stack =>
        refine ⟨stack, ?_⟩
        rw [ok_bind, Nat.zero_add, readTokens, hstep, ok_bind, readTokens]

/-- Reading fails with the failure of the first token that does not fit. -/
theorem readTokens_of_firstMisfit {ts : List String} {p : Nat} (h : FirstMisfit d ts p) :
    ∃ token stack f, ts[p]? = some token ∧ (stack.length : Int) = balance d (ts.take p) ∧
      readToken d p token stack = .error f ∧ readTokens d 0 ts [] = .error f := by
  obtain ⟨hp, hbefore⟩ := h
  have hlt := misfit_lt_length hp
  obtain ⟨token, htoken⟩ : ∃ token, ts[p]? = some token := ⟨_, List.getElem?_eq_getElem hlt⟩
  have hsplit : ts = ts.take p ++ token :: ts.drop (p + 1) := by
    rw [← (List.getElem?_eq_some_iff.1 htoken).2, List.getElem_cons_drop,
      List.take_append_drop]
  have hlen : (ts.take p).length = p := List.length_take_of_le (Nat.le_of_lt hlt)
  have hfit : ∀ q, ¬ Misfit d (ts.take p) q := by
    intro q hq
    have hqlt := misfit_lt_length hq
    refine hbefore q (hlen ▸ hqlt) ?_
    rw [hsplit]
    exact (misfit_append_iff hqlt).2 hq
  obtain ⟨stack, hstack⟩ := readTokens_eq_ok_iff.2 hfit
  have hmisfit : Misfit d (ts.take p ++ token :: ts.drop (p + 1)) (ts.take p).length := by
    rw [← hsplit, hlen]
    exact hp
  obtain ⟨f, hf⟩ := (misfit_iff_readToken hstack).1 hmisfit
  rw [hlen] at hf
  refine ⟨token, stack, f, htoken, ?_, hf, ?_⟩
  · have := (length_readTokens hstack).1
    simpa using this
  · rw [hsplit, readTokens_append, hstack, hlen, Nat.zero_add, ok_bind, readTokens, hf,
      error_bind]

theorem exists_firstMisfit {ts : List String} {p : Nat} (h : Misfit d ts p) :
    ∃ q, FirstMisfit d ts q := by
  classical
  have hex : ∃ q, Misfit d ts q := ⟨p, h⟩
  exact ⟨Nat.find hex, Nat.find_spec hex, fun q hq => Nat.find_min hex hq⟩

/-! ## Whole texts -/

theorem readTree_of_error {ts : List String} {f : ReadingFailure}
    (h : readTokens d 0 ts [] = .error f) : readTree d ts = .error f := by
  rw [readTree, h, error_bind]

theorem readTree_of_ok {ts : List String} {stack : List Expr}
    (h : readTokens d 0 ts [] = .ok stack) : readTree d ts = finish stack := by
  rw [readTree, h, ok_bind]

theorem finish_of_one_lt {stack : List Expr} (h : 1 < stack.length) :
    finish stack = .error (.syntaxError (.tooManyOperands stack.length)) := by
  match stack, h with
  | _ :: _ :: _, _ => rfl

theorem length_stack_eq {ts : List String} {stack : List Expr}
    (h : readTokens d 0 ts [] = .ok stack) : (stack.length : Int) = balance d ts := by
  have := (length_readTokens h).1
  simpa using this

theorem read_eq_error_iff {text : String} {f : ReadingFailure} :
    Expression.read d text = .error f ↔
      (tokenize text = [] ∧ f = .syntaxError .emptyExpression) ∨
      (tokenize text ≠ [] ∧ readTree d (tokenize text) = .error f) := by
  unfold Expression.read
  split
  · next h => simp [h, eq_comm]
  · next hne =>
    have hts : tokenize text ≠ [] := hne
    cases readTree d (tokenize text) <;> simp [hts, pure, Except.pure]

theorem exists_read_eq_ok_iff {text : String} :
    (∃ e, Expression.read d text = .ok e) ↔ ∃ r, readTree d (tokenize text) = .ok r := by
  simp [read_eq_ok_iff]

/-- The failure of reading is a diagnosis. -/
theorem Diagnosis.of_read {text : String} {f : ReadingFailure}
    (h : Expression.read d text = .error f) : Diagnosis d (some text) f := by
  rcases read_eq_error_iff.1 h with ⟨hnil, rfl⟩ | ⟨hne, htree⟩
  · exact .blank (tokenize_eq_nil_iff.1 hnil)
  · cases hts : readTokens d 0 (tokenize text) [] with
    | error g =>
      rw [readTree_of_error hts] at htree
      cases htree
      have hmisfit : ¬ ∀ p, ¬ Misfit d (tokenize text) p := by
        rw [← readTokens_eq_ok_iff, hts]
        rintro ⟨_, ⟨⟩⟩
      obtain ⟨q, hq⟩ := not_forall_not.1 hmisfit
      obtain ⟨p, hfirst⟩ := exists_firstMisfit hq
      obtain ⟨token, stack, f', htoken, hlen, hstep, hall⟩ := readTokens_of_firstMisfit hfirst
      rw [hts] at hall
      cases hall
      rcases readToken_eq_error_iff.1 hstep with ⟨hop, -, rfl⟩ | ⟨hop, hf⟩
      · exact .shortage hfirst htoken hop hlen.symm
      · exact .illegible hfirst htoken hop hf
    | ok stack =>
      rw [readTree_of_ok hts] at htree
      have hne' : stack ≠ [] := (length_readTokens hts).2 hne
      have hlen : 1 < stack.length := by
        match stack, hne', htree with
        | _ :: _ :: _, _, _ => simp
      rw [finish_of_one_lt hlen] at htree
      cases htree
      exact .surplus (readTokens_eq_ok_iff.1 ⟨stack, hts⟩) (length_stack_eq hts).symm hlen

theorem tokenize_ne_nil_of_misfit {text : String} {p : Nat} (h : Misfit d (tokenize text) p) :
    tokenize text ≠ [] := by
  have hlt := misfit_lt_length h
  exact List.ne_nil_of_length_pos (Nat.zero_lt_of_lt hlt)

/-- A diagnosis is the failure of reading. -/
theorem Diagnosis.read?_eq {text : Option String} {f : ReadingFailure} (h : Diagnosis d text f) :
    Expression.read? d text = .error f := by
  cases h with
  | noText => rfl
  | blank hblank => exact read_eq_error_iff.2 (.inl ⟨tokenize_eq_nil_iff.2 hblank, rfl⟩)
  | shortage first token_at is_operator balance_eq =>
    obtain ⟨token, stack, f, htoken, hlen, hstep, hall⟩ := readTokens_of_firstMisfit first
    rw [token_at] at htoken
    cases htoken
    refine read_eq_error_iff.2 (.inr ⟨tokenize_ne_nil_of_misfit first.1, ?_⟩)
    rw [readTree_of_error hall]
    rcases readToken_eq_error_iff.1 hstep with ⟨-, -, rfl⟩ | ⟨hop, -⟩
    · rw [balance_eq] at hlen
      rw [Int.ofNat_inj.1 hlen]
    · exact absurd is_operator hop
  | illegible first token_at not_operator fails =>
    obtain ⟨token, stack, f, htoken, -, hstep, hall⟩ := readTokens_of_firstMisfit first
    rw [token_at] at htoken
    cases htoken
    refine read_eq_error_iff.2 (.inr ⟨tokenize_ne_nil_of_misfit first.1, ?_⟩)
    rw [readTree_of_error hall]
    rcases readToken_eq_error_iff.1 hstep with ⟨hop, -, -⟩ | ⟨-, hf⟩
    · exact absurd hop not_operator
    · rw [hf] at fails
      rw [Except.error.inj fails]
  | @surplus text n all_fit balance_eq one_lt =>
    obtain ⟨stack, hts⟩ := readTokens_eq_ok_iff.2 all_fit
    have hlen : stack.length = n := by
      have := length_stack_eq hts
      omega
    have hne : tokenize text ≠ [] := by
      intro hnil
      rw [hnil, balance_nil] at balance_eq
      omega
    refine read_eq_error_iff.2 (.inr ⟨hne, ?_⟩)
    rw [readTree_of_ok hts, finish_of_one_lt (by omega), hlen]

/-- A text is accepted when all its tokens fit and one operand more than operators is left. -/
theorem exists_readTree_eq_ok_iff {ts : List String} :
    (∃ r, readTree d ts = .ok r) ↔ (∀ p, ¬ Misfit d ts p) ∧ balance d ts = 1 := by
  constructor
  · rintro ⟨r, hr⟩
    cases hts : readTokens d 0 ts [] with
    | error f =>
      rw [readTree_of_error hts] at hr
      cases hr
    | ok stack =>
      rw [readTree_of_ok hts] at hr
      have hlen := length_stack_eq hts
      rw [finish_eq_ok_iff.1 hr] at hlen
      exact ⟨readTokens_eq_ok_iff.1 ⟨stack, hts⟩, hlen.symm⟩
  · rintro ⟨hfit, hone⟩
    obtain ⟨stack, hts⟩ := readTokens_eq_ok_iff.2 hfit
    have hlen : stack.length = 1 := by
      have := length_stack_eq hts
      omega
    obtain ⟨r, rfl⟩ := List.length_eq_one_iff.1 hlen
    exact ⟨r, readTree_of_ok hts⟩

theorem Diagnosis.ne_noResult {text : Option String} {f : ReadingFailure}
    (h : Diagnosis d text f) : f ≠ .syntaxError .noResult := by
  cases h with
  | illegible first token_at not_operator fails =>
    rintro rfl
    exact readLiteral_ne_noResult fails
  | _ => simp

/-- Reading fails with the diagnosis of the text and with nothing else, it never fails for want of
    a result, and it succeeds exactly when every token fits and the balance is one. -/
theorem read?_eq_error_iff_diagnosis (d : Domain) (text : Option String) :
    (∀ f, Expression.read? d text = .error f ↔ Diagnosis d text f) ∧
      Expression.read? d text ≠ .error (.syntaxError .noResult) ∧
      ((∃ e, Expression.read? d text = .ok e) ↔
        ∃ t, text = some t ∧ (∀ p, ¬ Misfit d (tokenize t) p) ∧ balance d (tokenize t) = 1) := by
  have hiff : ∀ f, Expression.read? d text = .error f ↔ Diagnosis d text f := by
    intro f
    refine ⟨fun h => ?_, Diagnosis.read?_eq⟩
    cases text with
    | none =>
      cases h
      exact .noText
    | some t => exact .of_read h
  refine ⟨hiff, fun h => ((hiff _).1 h).ne_noResult rfl, ?_⟩
  cases text with
  | none => simp [Expression.read?]
  | some t =>
    rw [Expression.read?, exists_read_eq_ok_iff, exists_readTree_eq_ok_iff]
    simp

end ReversePolish
