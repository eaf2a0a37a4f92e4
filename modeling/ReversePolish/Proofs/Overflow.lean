import ReversePolish.Proofs.Rendered
import ReversePolish.Proofs.Typing

set_option autoImplicit false

/-! # Walks that overflow

A tree above the limit can have no value and no form. What its evaluation fails with depends on
the order of the walk: a division by zero in a part that the walk comes back from wins over a part
that is too high and comes later. A tree over one domain fails for no other reason. The forms know
no division, so the limit is all that they can fail for. -/

namespace ReversePolish

variable {d : Domain}

/-! ## Evaluation -/

/-- Above the limit a tree over a domain divides by zero on the way, or the walk overflows. -/
theorem Draft.trace_draft_of_lt {n : Nat} {e : Expr} (hover : Expr.IsOver d e)
    (h : n < Tree.height e) :
    (∃ a b, Draft.trace n (Expr.draft e) = .error (.divisionByZero a b)) ∨
      Draft.trace n (Expr.draft e) = .error .tooDeep := by
  induction e generalizing n with
  | leaf l =>
    rw [Tree.height, Nat.lt_one_iff] at h
    subst h
    exact .inr rfl
  | node op l r ihl ihr =>
    cases n with
    | zero => exact .inr rfl
    | succ n =>
      obtain ⟨hl, hr, -⟩ := Expr.isOver_node.1 hover
      rw [Tree.height] at h
      rw [Expr.draft_node, Draft.trace]
      by_cases hleft : n < Tree.height l
      · rcases ihl hl hleft with ⟨a, b, hs⟩ | hs
        · exact .inl ⟨a, b, by rw [hs, error_bind]⟩
        · exact .inr (by rw [hs, error_bind])
      · have hright : n < Tree.height r := by omega
        rw [Draft.trace_draft (Nat.le_of_not_lt hleft)]
        rcases Expr.trace_of_isOver hl with ⟨a, b, hs⟩ | ⟨s, hs, -⟩
        · exact .inl ⟨a, b, by rw [hs, error_bind]⟩
        · -- the walk comes back from the left subtree, so it fails in the right one
          rw [hs, ok_bind]
          rcases ihr hr hright with ⟨a, b, ht⟩ | ht
          · exact .inl ⟨a, b, by rw [ht, error_bind]⟩
          · exact .inr (by rw [ht, error_bind])

/-- No operator of intervals divides, so a walk over intervals only fails for the limit. -/
theorem Draft.trace_draft_ne_divisionByZero {n : Nat} {e : Expr} (hover : Expr.IsOver .interval e)
    (a b : Operand) : Draft.trace n (Expr.draft e) ≠ .error (.divisionByZero a b) := by
  intro h
  induction e generalizing n with
  | leaf l => cases n <;> cases h
  | node op l r ihl ihr =>
    obtain ⟨hl, hr, hop⟩ := Expr.isOver_node.1 hover
    cases n with
    | zero => cases h
    | succ n =>
      rcases bind_eq_error_iff.1 h with h | ⟨s, -, h⟩
      · exact ihl hl h
      rcases bind_eq_error_iff.1 h with h | ⟨t, -, h⟩
      · exact ihr hr h
      rw [lookUpOperator_symbol, ok_bind] at h
      rcases bind_eq_error_iff.1 h with h | ⟨v, -, h⟩
      · obtain ⟨⟨rfl, -⟩, -, -⟩ := Operator.apply_eq_divisionByZero_iff.1 h
        cases hop
      · cases h

theorem Draft.trace_draft_of_interval_of_lt {n : Nat} {e : Expr} (hover : Expr.IsOver .interval e)
    (h : n < Tree.height e) : Draft.trace n (Expr.draft e) = .error .tooDeep := by
  rcases Draft.trace_draft_of_lt hover h with ⟨a, b, hfail⟩ | hfail
  · exact absurd hfail (Draft.trace_draft_ne_divisionByZero hover a b)
  · exact hfail

namespace Expression

/-- How the evaluation of an expression ends. -/
inductive Ends (e : Expression) : Except EvaluationError Evaluation → Prop where
  /-- There is a value, of the domain of the expression. -/
  | value {t : Trace} (height_le : e.root.height ≤ maxDepth)
      (trace_eq : Expr.trace e.root = .ok t) (domain_eq : t.value.domain = e.domain) :
      e.Ends (.ok ⟨e.domain, t⟩)
  | zeroDivisor {a b : Operand} : e.Ends (.error (.divisionByZero a b))
  | overflow (lt_height : maxDepth < e.root.height) : e.Ends (.error .tooDeep)

/-- An expression over its domain ends in a value, at a division by zero or above the limit. -/
theorem ends_evaluation {e : Expression} (hover : Expr.IsOver e.domain e.root) :
    e.Ends e.evaluation := by
  by_cases hheight : e.root.height ≤ maxDepth
  · rw [evaluation_eq hheight]
    rcases Expr.trace_of_isOver hover with ⟨a, b, hfail⟩ | ⟨t, ht, hdomain⟩
    · rw [hfail]
      exact .zeroDivisor
    · rw [ht]
      exact .value hheight ht hdomain
  · have hlt := Nat.lt_of_not_le hheight
    rw [evaluation, trace]
    rcases Draft.trace_draft_of_lt hover hlt with ⟨a, b, hfail⟩ | hfail
    · rw [hfail]
      exact .zeroDivisor
    · rw [hfail]
      exact .overflow hlt

theorem isOver_of_read {text : String} {e : Expression} (h : read d text = .ok e) :
    e.domain = d ∧ Expr.IsOver d e.root := by
  obtain ⟨r, hr, rfl⟩ := read_eq_ok_iff.1 h
  exact ⟨rfl, Expr.isOver_of_denotes (readTree_eq_ok_iff.1 hr)⟩

theorem ends_of_read {text : String} {e : Expression} (h : read d text = .ok e) :
    e.Ends e.evaluation := by
  obtain ⟨rfl, hover⟩ := isOver_of_read h
  exact ends_evaluation hover

/-! ## Rendering -/

theorem render_of_le {e : Expression} (h : e.root.height ≤ maxDepth) :
    e.render = .ok (Expr.labels e.root).rendering := by
  rw [render, Draft.render, Draft.labels_draft h]
  rfl

theorem render_of_lt {e : Expression} (h : maxDepth < e.root.height) :
    e.render = .error .tooDeep := by
  rw [render, Draft.render, Draft.labels_draft_of_lt h]
  rfl

theorem stats?_of_le {e : Expression} (h : e.root.height ≤ maxDepth) :
    e.stats? = some ⟨e.root.height, e.root.leafCount, e.root.operatorCount⟩ :=
  if_pos h

end Expression

end ReversePolish
