import ReversePolish.Proofs.Depth
import ReversePolish.Proofs.Postfix

set_option autoImplicit false

/-! # Trees over one domain

A tree is over a domain when its operators and its literals all belong to it. A tree that is read
is over the domain of its reading, and a tree over a domain has a value of that domain or divides
by zero: none of the failures that come from mixing the domains can arise. -/

namespace ReversePolish

variable {d : Domain}

/-! ## Trees over a domain -/

/-- All operators and literals of the tree belong to the domain. -/
def Expr.IsOver (d : Domain) (e : Expr) : Prop :=
  ∀ x ∈ Tree.postorder e, labelDomain x = d

instance (d : Domain) (e : Expr) : Decidable (Expr.IsOver d e) :=
  inferInstanceAs (Decidable (∀ x ∈ Tree.postorder e, labelDomain x = d))

@[simp] theorem Expr.isOver_leaf {l : Literal} : Expr.IsOver d (.leaf l) ↔ l.domain = d := by
  simp [Expr.IsOver, Tree.postorder, labelDomain]

@[simp] theorem Expr.isOver_node {op : Operator} {l r : Expr} :
    Expr.IsOver d (.node op l r) ↔ Expr.IsOver d l ∧ Expr.IsOver d r ∧ op.domain = d := by
  simp only [Expr.IsOver, Tree.postorder, List.forall_mem_append, List.forall_mem_singleton,
    and_assoc]
  rfl

theorem Expr.isOver_of_denotes {ts : List String} {e : Expr}
    (h : List.Forall₂ (Denotes d) ts (Tree.postorder e)) : Expr.IsOver d e := by
  intro x hx
  obtain ⟨i, hi, rfl⟩ := List.getElem_of_mem hx
  exact (h.get (by rw [h.length_eq]; exact hi) hi).labelDomain_eq

/-! ## Operators on values of their domain -/

/-- An operator divides by zero exactly as the division with a divisor that is zero. -/
theorem Operator.apply_eq_divisionByZero_iff {op : Operator} {a b x y : Operand} :
    op.apply a b = .error (.divisionByZero x y) ↔
      (op = .div ∧ b.isZero = true) ∧ x = a ∧ y = b := by
  cases op with
  | div =>
    simp only [Operator.apply, true_and]
    split
    · next hb => simp [hb, eq_comm]
    · next hb => cases a <;> cases b <;> simp [hb, Operator.onNumbers]
  | add | sub | mul => cases a <;> cases b <;> simp [Operator.apply, Operator.onNumbers]
  | union | inter => cases a <;> cases b <;> simp [Operator.apply, Operator.onIntervals]

/-- On two values of its domain an operator divides by zero or has a result of the domain. -/
theorem Operator.apply_of_domain {op : Operator} {a b : Operand} (ha : a.domain = op.domain)
    (hb : b.domain = op.domain) :
    op.apply a b = .error (.divisionByZero a b) ∨
      ∃ v, op.apply a b = .ok v ∧ v.domain = op.domain := by
  cases op with
  | div =>
    by_cases hz : b.isZero = true
    · left
      simp [Operator.apply, hz]
    · right
      cases a with
      | interval i => cases ha
      | number x =>
        cases b with
        | interval j => cases hb
        | number y => exact ⟨.number (x / y), by simp [Operator.apply, hz, Operator.onNumbers], rfl⟩
  | add | sub | mul =>
    right
    cases a with
    | interval i => cases ha
    | number x =>
      cases b with
      | interval j => cases hb
      | number y => exact ⟨_, rfl, rfl⟩
  | union | inter =>
    right
    cases a with
    | number x => cases ha
    | interval i =>
      cases b with
      | number y => cases hb
      | interval j => exact ⟨_, rfl, rfl⟩

/-- A tree over a domain has a value of the domain or divides by zero. -/
theorem Expr.trace_of_isOver {e : Expr} (h : Expr.IsOver d e) :
    (∃ a b, Expr.trace e = .error (.divisionByZero a b)) ∨
      ∃ t, Expr.trace e = .ok t ∧ t.value.domain = d := by
  induction e with
  | leaf l => exact .inr ⟨_, rfl, Expr.isOver_leaf.1 h⟩
  | node op l r ihl ihr =>
    obtain ⟨hl, hr, hop⟩ := Expr.isOver_node.1 h
    rw [Expr.trace]
    rcases ihl hl with ⟨a, b, hs⟩ | ⟨s, hs, hsd⟩
    · left
      exact ⟨a, b, by rw [hs, error_bind]⟩
    · rcases ihr hr with ⟨a, b, ht⟩ | ⟨t, ht, htd⟩
      · left
        exact ⟨a, b, by rw [hs, ok_bind, ht, error_bind]⟩
      · rw [hs, ok_bind, ht, ok_bind]
        rcases Operator.apply_of_domain (hsd.trans hop.symm) (htd.trans hop.symm) with
          hv | ⟨v, hv, hvd⟩
        · left
          exact ⟨s.value, t.value, by rw [hv, error_bind]⟩
        · right
          refine ⟨.join op s t v, ?_, hvd.trans hop⟩
          rw [hv, ok_bind]
          rfl

end ReversePolish
