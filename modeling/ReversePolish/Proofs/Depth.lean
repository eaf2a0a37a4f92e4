import ReversePolish.Expression
import ReversePolish.Proofs.Outcome

set_option autoImplicit false

/-! # Evaluation without a limit

The walks that evaluate a draft are limited in depth and look operators up by their symbols. On a
checked tree that the limit does not reach, neither matters: they are the plain recursions below,
and the value is that of the trace. -/

namespace ReversePolish

/-- The value of a checked tree of any height. -/
def Expr.value : Expr → Except EvaluationError Operand
  | .leaf l => .ok l.operand
  | .node op l r => do
    let a ← Expr.value l
    let b ← Expr.value r
    op.apply a b

/-- The trace of a checked tree of any height. -/
def Expr.trace : Expr → Except EvaluationError Trace
  | .leaf l => .ok ⟨l.operand, []⟩
  | .node op l r => do
    let s ← Expr.trace l
    let t ← Expr.trace r
    let v ← op.apply s.value t.value
    return .join op s t v

@[simp] theorem lookUpOperator_symbol (op : Operator) : lookUpOperator op.symbol = .ok op := by
  rw [lookUpOperator, Operator.ofSymbol?_symbol]

theorem Draft.evaluate_draft {n : Nat} {e : Expr} (h : Tree.height e ≤ n) :
    Draft.evaluate n (Expr.draft e) = Expr.value e := by
  induction e generalizing n with
  | leaf l =>
    cases n with
    | zero => cases h
    | succ n => rfl
  | node op l r ihl ihr =>
    cases n with
    | zero =>
      rw [Tree.height] at h
      omega
    | succ n =>
      rw [Tree.height] at h
      have hl : Tree.height l ≤ n := by omega
      have hr : Tree.height r ≤ n := by omega
      rw [Expr.draft_node, Draft.evaluate, lookUpOperator_symbol, ihl hl, ihr hr]
      rfl

theorem Draft.trace_draft {n : Nat} {e : Expr} (h : Tree.height e ≤ n) :
    Draft.trace n (Expr.draft e) = Expr.trace e := by
  induction e generalizing n with
  | leaf l =>
    cases n with
    | zero => cases h
    | succ n => rfl
  | node op l r ihl ihr =>
    cases n with
    | zero =>
      rw [Tree.height] at h
      omega
    | succ n =>
      rw [Tree.height] at h
      have hl : Tree.height l ≤ n := by omega
      have hr : Tree.height r ≤ n := by omega
      rw [Expr.draft_node, Draft.trace, lookUpOperator_symbol, ihl hl, ihr hr]
      rfl

/-- The value of a tree is that of its trace, and they fail together. -/
theorem Expr.value_eq_map_trace (e : Expr) :
    Expr.value e = (Expr.trace e).map Trace.value := by
  induction e with
  | leaf l => rfl
  | node op l r ihl ihr =>
    rw [Expr.value, Expr.trace, ihl, ihr]
    cases Expr.trace l with
    | error f => rfl
    | ok s =>
      cases Expr.trace r with
      | error f => rfl
      | ok t =>
        change op.apply s.value t.value = _
        rw [ok_bind, ok_bind]
        cases op.apply s.value t.value <;> rfl

/-- The last step of a trace leads to its value. -/
theorem Expr.getLast?_steps {e : Expr} {t : Trace} (h : Expr.trace e = .ok t)
    (hne : t.steps ≠ []) : ∃ s, t.steps.getLast? = some s ∧ s.result = t.value := by
  cases e with
  | leaf l =>
    cases h
    exact absurd rfl hne
  | node op l r =>
    rw [Expr.trace] at h
    obtain ⟨s, -, h⟩ := bind_eq_ok_iff.1 h
    obtain ⟨u, -, h⟩ := bind_eq_ok_iff.1 h
    obtain ⟨v, -, h⟩ := bind_eq_ok_iff.1 h
    cases h
    exact ⟨⟨op, s.value, u.value, v⟩, by simp [Trace.join], rfl⟩

/-! ## Expressions -/

theorem Expression.evaluate_eq {e : Expression} (h : e.root.height ≤ maxDepth) :
    e.evaluate = Expr.value e.root :=
  Draft.evaluate_draft h

theorem Expression.evaluation_eq {e : Expression} (h : e.root.height ≤ maxDepth) :
    e.evaluation = (Expr.trace e.root).map fun t => ⟨e.domain, t⟩ := by
  rw [Expression.evaluation, Expression.trace, Draft.trace_draft h]
  cases Expr.trace e.root <;> rfl

end ReversePolish
