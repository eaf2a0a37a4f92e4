import ReversePolish.Proofs.Calculator
import ReversePolish.Proofs.Responses
import ReversePolish.Proofs.RoundTrip

set_option autoImplicit false

/-! # The fields of an answer

The fields of an evaluation that is answered say one thing in several ways. The value is left out
exactly where its text is one that no literal has, and any other value is what its text is read
as. The steps count the operators that the rendering of the same order reports, the last of them
ends with the text of the value, and without steps this text is all that any form shows. -/

namespace ReversePolish

/-! ## Values and their texts -/

/-- The texts of the numbers that are not finite. -/
def nonFiniteTexts : List String :=
  ["inf", "-inf", "nan"]

theorem Literal.text_not_mem_nonFiniteTexts (l : Literal) : l.text ∉ nonFiniteTexts := by
  intro h
  have hfails : ∀ d, ∀ t ∈ nonFiniteTexts, (readLiteral d t 0).toOption = none := by
    intro d
    cases d <;> decide +kernel
  have hnone := hfails l.domain l.text h
  rw [l.readLiteral_text 0] at hnone
  cases hnone

/-- A value is that of a literal and is answered, or its text is none of a literal. -/
theorem Service.finiteValue?_cases (v : Operand) :
    (finiteValue? v = some v ∧ ∃ l : Literal, l.operand = v) ∨
      (finiteValue? v = none ∧ v.text ∈ nonFiniteTexts) := by
  cases v with
  | interval i => exact .inl ⟨rfl, .interval i, rfl⟩
  | number x =>
    cases x with
    | finite x => exact .inl ⟨rfl, .number x, rfl⟩
    | nan => exact .inr ⟨rfl, by decide⟩
    | infinity s => cases s <;> exact .inr ⟨rfl, by decide⟩

/-! ## Steps -/

namespace Expr

/-- There is one step for each operator. -/
theorem length_lines {e : Expr} {t : Trace} (h : trace e = .ok t) :
    t.lines.length = e.operatorCount := by
  rw [Trace.lines, List.length_map]
  induction e generalizing t with
  | leaf l =>
    cases h
    rfl
  | node op l r ihl ihr =>
    rw [trace] at h
    obtain ⟨s, hs, h⟩ := bind_eq_ok_iff.1 h
    obtain ⟨u, hu, h⟩ := bind_eq_ok_iff.1 h
    obtain ⟨v, -, h⟩ := bind_eq_ok_iff.1 h
    cases h
    simp only [Trace.join, List.length_append, List.length_singleton, ihl hs, ihr hu,
      Tree.operatorCount]
    omega

/-- Without steps there is nothing but a literal. -/
theorem eq_leaf_of_lines_eq_nil {e : Expr} {t : Trace} (h : trace e = .ok t)
    (hnil : t.lines = []) : ∃ l, e = .leaf l ∧ t.display = l.text := by
  have hcount := length_lines h
  rw [hnil, List.length_nil] at hcount
  cases e with
  | leaf l =>
    cases h
    exact ⟨l, rfl, rfl⟩
  | node op l r =>
    rw [Tree.operatorCount] at hcount
    omega

end Expr

/-! ## Answers -/

namespace Service

/-- An evaluation and the rendering of the same order fit together. -/
structure EvaluationAnswer.ConsistentWith (a : EvaluationAnswer) (b : RenderingAnswer) : Prop where
  value_eq_none_iff : a.value = none ↔ a.display ∈ ["inf", "-inf", "nan"]
  /-- In the domain of the answer the text of a value stands for the value. -/
  display_denotes : ∀ v, a.value = some v →
    ∃ l : Literal, Denotes a.domain a.display (.inr l) ∧ l.operand = v
  length_steps : a.steps.length = b.stats.operatorCount
  length_steps_add_one : a.steps.length + 1 = b.stats.leafCount
  last_step : a.steps ≠ [] → ∃ front, a.steps.getLast? = some (front ++ "= " ++ a.display)
  forms_eq : a.steps = [] →
    b.rendering.infixForm = a.display ∧ b.rendering.prefixForm = a.display ∧
      b.rendering.diagram = a.display

theorem consistentWith_of_trace {e : Expression} {t : Trace} (h : Expr.trace e.root = .ok t)
    (hdomain : t.value.domain = e.domain) :
    (EvaluationAnswer.of ⟨e.domain, t⟩).ConsistentWith (.of e) := by
  have hcount : t.lines.length = e.root.operatorCount := Expr.length_lines h
  have hleaves : t.lines.length + 1 = e.root.leafCount := by
    rw [hcount, Tree.leafCount_eq_operatorCount_add_one]
  refine ⟨?_, ?_, hcount, hleaves, Expr.getLast?_lines h, ?_⟩
  · change finiteValue? t.value = none ↔ t.value.text ∈ nonFiniteTexts
    rcases finiteValue?_cases t.value with ⟨hvalue, l, hl⟩ | ⟨hvalue, htext⟩
    · rw [hvalue, ← hl]
      exact iff_of_false (Option.some_ne_none _) l.text_not_mem_nonFiniteTexts
    · exact iff_of_true hvalue htext
  · intro v hv
    rcases finiteValue?_cases t.value with ⟨hvalue, l, hl⟩ | ⟨hvalue, -⟩
    · cases hvalue.symm.trans hv
      have hdenotes : Denotes l.domain l.text (.inr l) := denotes_labelText (.inr l)
      rw [Literal.domain, Literal.text, hl, hdomain] at hdenotes
      exact ⟨l, hdenotes, hl⟩
    · cases hvalue.symm.trans hv
  · intro hnil
    obtain ⟨l, hleaf, htext⟩ := Expr.eq_leaf_of_lines_eq_nil h hnil
    rw [RenderingAnswer.of, hleaf]
    exact ⟨htext.symm, htext.symm, htext.symm⟩

theorem exists_ofBody_of_status {s : Settings} {body : Body}
    (h : (post s .evaluate body).status = 200) : ∃ o, Order.ofBody body = .ok o := by
  rw [post_eq_respondOn s rfl, respondOn] at h
  cases hbody : Order.ofBody body with
  | ok o => exact ⟨o, rfl⟩
  | error f =>
    rw [hbody] at h
    cases f with
    | ragged o => exact absurd h (RaggedOrder.answered_iff.2 rfl).status_ne
    | _ => cases h

/-- Where an evaluation is answered, the rendering of the same body is answered too, and the fields
    of the two objects are consistent. -/
theorem answer_fields_consistent (s : Settings) {body : Body}
    (h : (post s .evaluate body).status = 200) :
    ∃ (a : EvaluationAnswer) (b : RenderingAnswer),
      post s .evaluate body =
        ⟨200, .json (.object
          [("domain", .string a.domain.name), ("value", .ofOption operandJson a.value),
            ("display", .string a.display), ("is_empty", .bool a.isEmpty),
            ("steps", .array (a.steps.map .string))])⟩ ∧
      post s .render body =
        ⟨200, .json (.object
          [("domain", .string b.domain.name), ("infix", .string b.rendering.infixForm),
            ("prefix", .string b.rendering.prefixForm),
            ("ascii_tree", .string b.rendering.diagram),
            ("stats", .object
              [("height", .integer b.stats.height), ("leaf_count", .integer b.stats.leafCount),
                ("operator_count", .integer b.stats.operatorCount)])])⟩ ∧
      a.ConsistentWith b := by
  obtain ⟨o, hbody⟩ := exists_ofBody_of_status h
  obtain ⟨p, q, hanswered⟩ := Order.exists_answered s o
  obtain ⟨hp, hq⟩ := (answered_iff hbody).1 hanswered
  rw [hp] at h ⊢
  rw [hq]
  cases hanswered with
  | @value e r fits read_eq height_le evaluation_eq =>
    have hends := Expression.ends_of_read read_eq
    rw [evaluation_eq] at hends
    cases hends with
    | value _ trace_eq domain_eq =>
      exact ⟨_, _, rfl, rfl, consistentWith_of_trace trace_eq domain_eq⟩
  | _ => cases h

/-- A product that is not finite is answered with its text and without a value. -/
theorem answer_fields_consistent_infinity :
    let body : Body := .json (.object [("text", .string "1e308 10 *")])
    (post .default .evaluate body).status = 200 ∧
      (post .default .evaluate body).text? "display" = some "inf" ∧
      ∃ (a : EvaluationAnswer) (b : RenderingAnswer),
        post .default .evaluate body = ⟨200, .json (evaluationJson a)⟩ ∧
          post .default .render body = ⟨200, .json (renderingJson b)⟩ ∧ a.ConsistentWith b := by
  intro body
  have hstatus : (post .default .evaluate body).status = 200 := by decide +kernel
  obtain ⟨a, b, ha, hb, hab⟩ := answer_fields_consistent .default hstatus
  exact ⟨hstatus, by decide +kernel, a, b, ha, hb, hab⟩

end Service

end ReversePolish
