import Mathlib.Data.List.Perm.Basic
import ReversePolish.Proofs.Overflow
import ReversePolish.Proofs.Safety
import ReversePolish.Proofs.TwoWalks

set_option autoImplicit false

/-! # Trees with one operator over intervals

A tree in which every operator is the same folds it over the leaves. What it comes to is said of
the leaves alone: for meets, from the greatest lower bound to the least upper bound, or the marked
interval if these are out of order; for hulls, from the least lower bound to the greatest upper
bound. Neither the shape of the tree nor the order of the leaves is left in that.

Meets that have nothing in common are not lost on the way. The marked interval lies at the least
integer, and so does whatever it has in common with another interval: it absorbs every interval
that it meets. -/

namespace ReversePolish

/-! ## Greatest and least of a list -/

section Bounds

variable {xs ys : List Int} {x y : Int}

theorem max?_append_of_eq_some (hx : xs.max? = some x) (hy : ys.max? = some y) :
    (xs ++ ys).max? = some (max x y) := by
  obtain ⟨hxmem, hxle⟩ := List.max?_eq_some_iff.1 hx
  obtain ⟨hymem, hyle⟩ := List.max?_eq_some_iff.1 hy
  refine List.max?_eq_some_iff.2 ⟨?_, ?_⟩
  · exact max_rec' (· ∈ xs ++ ys) (List.mem_append_left _ hxmem) (List.mem_append_right _ hymem)
  · exact List.forall_mem_append.2 ⟨fun b hb => le_max_of_le_left (hxle b hb),
      fun b hb => le_max_of_le_right (hyle b hb)⟩

theorem min?_append_of_eq_some (hx : xs.min? = some x) (hy : ys.min? = some y) :
    (xs ++ ys).min? = some (min x y) := by
  obtain ⟨hxmem, hxle⟩ := List.min?_eq_some_iff.1 hx
  obtain ⟨hymem, hyle⟩ := List.min?_eq_some_iff.1 hy
  refine List.min?_eq_some_iff.2 ⟨?_, ?_⟩
  · exact min_rec' (· ∈ xs ++ ys) (List.mem_append_left _ hxmem) (List.mem_append_right _ hymem)
  · exact List.forall_mem_append.2 ⟨fun b hb => min_le_of_left_le (hxle b hb),
      fun b hb => min_le_of_right_le (hyle b hb)⟩

theorem max?_eq_some_of_perm (h : xs.Perm ys) (hx : xs.max? = some x) : ys.max? = some x := by
  simp only [List.max?_eq_some_iff, ← h.mem_iff] at hx ⊢
  exact hx

theorem min?_eq_some_of_perm (h : xs.Perm ys) (hx : xs.min? = some x) : ys.min? = some x := by
  simp only [List.min?_eq_some_iff, ← h.mem_iff] at hx ⊢
  exact hx

end Bounds

/-! ## What the leaves come to -/

namespace Interval

/-- What a list of intervals has in common: the integers from the greatest lower bound to the least
    upper bound, or nothing if there are none between them. -/
inductive IsMeetOf (is : List Interval) : Interval → Prop where
  | common {v : Interval} (lower : (is.map lower).max? = some v.lower)
      (upper : (is.map upper).min? = some v.upper) : IsMeetOf is v
  | nothing {s e : Int} (lower : (is.map lower).max? = some s)
      (upper : (is.map upper).min? = some e) (lt : e < s) : IsMeetOf is empty

/-- What a list of intervals spans: the integers from the least lower bound to the greatest upper
    bound. -/
structure IsHullOf (is : List Interval) (v : Interval) : Prop where
  lower : (is.map lower).min? = some v.lower
  upper : (is.map upper).max? = some v.upper

variable {is js : List Interval} {a b : Interval}

/-! ### One interval -/

theorem isMeetOf_singleton (i : Interval) : IsMeetOf [i] i :=
  .common rfl rfl

theorem isHullOf_singleton (i : Interval) : IsHullOf [i] i :=
  ⟨rfl, rfl⟩

/-! ### Two lists -/

theorem lower_empty : empty.lower = minBound := rfl

theorem upper_empty : empty.upper = minBound := rfl

/-- The marked interval absorbs what it meets, also where the two have an integer in common. -/
theorem empty_meet (i : Interval) : empty.meet i = empty := by
  by_cases h : max empty.lower i.lower ≤ min empty.upper i.upper
  · have hmin := i.minBound_le
    have hle := i.lower_le_upper
    have hlower := lower_meet h
    have hupper := upper_meet h
    rw [lower_empty, upper_empty] at h
    rw [lower_empty] at hlower
    rw [upper_empty] at hupper
    refine eq_of_bounds ?_ ?_
    · rw [hlower, lower_empty]
      omega
    · rw [hupper, upper_empty]
      omega
  · exact meet_eq_empty (not_le.1 h)

theorem meet_comm (a b : Interval) : a.meet b = b.meet a := by
  simp only [meet, max_comm a.lower, min_comm a.upper]

theorem meet_empty (i : Interval) : i.meet empty = empty := by
  rw [meet_comm, empty_meet]

theorem IsHullOf.append (ha : IsHullOf is a) (hb : IsHullOf js b) :
    IsHullOf (is ++ js) (a.hull b) where
  lower := by
    rw [List.map_append]
    exact min?_append_of_eq_some ha.lower hb.lower
  upper := by
    rw [List.map_append]
    exact max?_append_of_eq_some ha.upper hb.upper

theorem IsMeetOf.append (ha : IsMeetOf is a) (hb : IsMeetOf js b) :
    IsMeetOf (is ++ js) (a.meet b) := by
  -- without a common integer on one side there is none at all, and the marked interval stays
  have hnothing : ∀ {s e s' e' : Int}, (is.map Interval.lower).max? = some s →
      (is.map Interval.upper).min? = some e → (js.map Interval.lower).max? = some s' →
      (js.map Interval.upper).min? = some e' → min e e' < max s s' →
      IsMeetOf (is ++ js) empty := by
    intro s e s' e' hs he hs' he' hlt
    refine .nothing ?_ ?_ hlt
    · rw [List.map_append]
      exact max?_append_of_eq_some hs hs'
    · rw [List.map_append]
      exact min?_append_of_eq_some he he'
  cases ha with
  | common hs he =>
    cases hb with
    | common hs' he' =>
      by_cases h : max a.lower b.lower ≤ min a.upper b.upper
      · refine .common ?_ ?_
        · rw [List.map_append, lower_meet h]
          exact max?_append_of_eq_some hs hs'
        · rw [List.map_append, upper_meet h]
          exact min?_append_of_eq_some he he'
      · rw [meet_eq_empty (not_le.1 h)]
        exact hnothing hs he hs' he' (not_le.1 h)
    | nothing hs' he' hlt =>
      rw [meet_empty]
      exact hnothing hs he hs' he' (by omega)
  | nothing hs he hlt =>
    rw [empty_meet]
    cases hb with
    | common hs' he' => exact hnothing hs he hs' he' (by omega)
    | nothing hs' he' hlt' => exact hnothing hs he hs' he' (by omega)

/-! ### The order of the list -/

theorem IsMeetOf.unique (ha : IsMeetOf is a) (hb : IsMeetOf is b) : a = b := by
  have hordered : ∀ {v : Interval} {s e : Int}, (is.map Interval.lower).max? = some v.lower →
      (is.map Interval.upper).min? = some v.upper → (is.map Interval.lower).max? = some s →
      (is.map Interval.upper).min? = some e → ¬ e < s := by
    intro v s e hv hv' hs he
    rw [Option.some.inj (hs.symm.trans hv), Option.some.inj (he.symm.trans hv')]
    exact not_lt.2 v.lower_le_upper
  cases ha with
  | common hs he =>
    cases hb with
    | common hs' he' =>
      exact eq_of_bounds (Option.some.inj (hs.symm.trans hs')) (Option.some.inj (he.symm.trans he'))
    | nothing hs' he' hlt => exact absurd hlt (hordered hs he hs' he')
  | nothing hs he hlt =>
    cases hb with
    | common hs' he' => exact absurd hlt (hordered hs' he' hs he)
    | nothing => rfl

theorem IsHullOf.unique (ha : IsHullOf is a) (hb : IsHullOf is b) : a = b :=
  eq_of_bounds (Option.some.inj (ha.lower.symm.trans hb.lower))
    (Option.some.inj (ha.upper.symm.trans hb.upper))

theorem IsMeetOf.perm (h : is.Perm js) (ha : IsMeetOf is a) : IsMeetOf js a := by
  cases ha with
  | common hs he =>
    exact .common (max?_eq_some_of_perm (h.map _) hs) (min?_eq_some_of_perm (h.map _) he)
  | nothing hs he hlt =>
    exact .nothing (max?_eq_some_of_perm (h.map _) hs) (min?_eq_some_of_perm (h.map _) he) hlt

theorem IsHullOf.perm (h : is.Perm js) (ha : IsHullOf is a) : IsHullOf js a :=
  ⟨min?_eq_some_of_perm (h.map _) ha.lower, max?_eq_some_of_perm (h.map _) ha.upper⟩

end Interval

/-! ## Trees with one operator -/

namespace Expr

variable {op : Operator} {e : Expr}

/-- The operators at the inner nodes. -/
def operators (e : Expr) : List Operator :=
  (Tree.postorder e).filterMap Sum.getLeft?

/-- Every operator in the tree is that one. -/
def HasOnly (op : Operator) (e : Expr) : Prop :=
  ∀ op' ∈ operators e, op' = op

instance (op : Operator) (e : Expr) : Decidable (HasOnly op e) :=
  inferInstanceAs (Decidable (∀ op' ∈ operators e, op' = op))

@[simp] theorem operators_node (op : Operator) (l r : Expr) :
    operators (.node op l r) = operators l ++ operators r ++ [op] := by
  simp [operators, Tree.postorder, List.filterMap_append]

theorem hasOnly_node {op' : Operator} {l r : Expr} :
    HasOnly op (.node op' l r) ↔ HasOnly op l ∧ HasOnly op r ∧ op' = op := by
  simp only [HasOnly, operators_node, List.forall_mem_append, List.forall_mem_singleton, and_assoc]

/-- What holds of one interval and goes along with the operator holds of the leaves of a tree that
    has no other operator, and of its value. -/
theorem exists_value_of_hasOnly {f : Interval → Interval → Interval}
    {P : List Interval → Interval → Prop}
    (happly : ∀ i j, op.apply (.interval i) (.interval j) = .ok (.interval (f i j)))
    (hsingleton : ∀ i, P [i] i)
    (happend : ∀ {is js a b}, P is a → P js b → P (is ++ js) (f a b))
    (hover : Expr.IsOver .interval e) (honly : HasOnly op e) :
    ∃ is v, Tree.leaves e = is.map .interval ∧ P is v ∧ Expr.value e = .ok (.interval v) := by
  induction e with
  | leaf l =>
    cases l with
    | number x => cases Expr.isOver_leaf.1 hover
    | interval i => exact ⟨[i], i, rfl, hsingleton i, rfl⟩
  | node op' l r ihl ihr =>
    obtain ⟨hl, hr, -⟩ := Expr.isOver_node.1 hover
    obtain ⟨honlyl, honlyr, rfl⟩ := hasOnly_node.1 honly
    obtain ⟨is, a, his, ha, hva⟩ := ihl hl honlyl
    obtain ⟨js, b, hjs, hb, hvb⟩ := ihr hr honlyr
    refine ⟨is ++ js, f a b, ?_, happend ha hb, ?_⟩
    · rw [Tree.leaves, his, hjs, List.map_append]
    · exact Expr.value_node_eq_ok_iff.2 ⟨_, _, hva, hvb, happly a b⟩

theorem exists_value_isMeetOf (hover : Expr.IsOver .interval e) (honly : HasOnly .inter e) :
    ∃ is v, Tree.leaves e = is.map .interval ∧ Interval.IsMeetOf is v ∧
      Expr.value e = .ok (.interval v) :=
  exists_value_of_hasOnly (fun _ _ => rfl) Interval.isMeetOf_singleton Interval.IsMeetOf.append
    hover honly

theorem exists_value_isHullOf (hover : Expr.IsOver .interval e) (honly : HasOnly .union e) :
    ∃ is v, Tree.leaves e = is.map .interval ∧ Interval.IsHullOf is v ∧
      Expr.value e = .ok (.interval v) :=
  exists_value_of_hasOnly (fun _ _ => rfl) Interval.isHullOf_singleton Interval.IsHullOf.append
    hover honly

theorem perm_of_leaves {is js : List Interval} {f : Expr}
    (h : (Tree.leaves e).Perm (Tree.leaves f)) (he : Tree.leaves e = is.map .interval)
    (hf : Tree.leaves f = js.map .interval) : is.Perm js := by
  rw [he, hf] at h
  exact (List.map_perm_map_iff fun _ _ => Literal.interval.inj).1 h

/-- Trees with one operator over the same leaves have the same value. -/
theorem value_eq_of_leaves_perm {f : Expr} (hop : op.domain = .interval)
    (he : Expr.IsOver .interval e) (hf : Expr.IsOver .interval f) (honlye : HasOnly op e)
    (honlyf : HasOnly op f) (h : (Tree.leaves e).Perm (Tree.leaves f)) :
    Expr.value e = Expr.value f := by
  cases op with
  | inter =>
    obtain ⟨is, v, his, hv, hev⟩ := exists_value_isMeetOf he honlye
    obtain ⟨js, w, hjs, hw, hfw⟩ := exists_value_isMeetOf hf honlyf
    rw [hev, hfw, (hv.perm (perm_of_leaves h his hjs)).unique hw]
  | union =>
    obtain ⟨is, v, his, hv, hev⟩ := exists_value_isHullOf he honlye
    obtain ⟨js, w, hjs, hw, hfw⟩ := exists_value_isHullOf hf honlyf
    rw [hev, hfw, (hv.perm (perm_of_leaves h his hjs)).unique hw]
  | add | sub | mul | div => cases hop

end Expr

/-! ## Expressions -/

namespace Expression

variable {e : Expression} {v : Operand}

/-- The tree has the value, and evaluation comes to it, with steps and without, if the tree is no
    higher than walks can follow. -/
structure HasValue (e : Expression) (v : Operand) : Prop where
  value_eq : Expr.value e.root = .ok v
  endsIn : e.EndsIn (if e.root.height ≤ maxDepth then .ok v else .error .tooDeep)

theorem hasValue_of_value (hover : Expr.IsOver .interval e.root) (h : Expr.value e.root = .ok v) :
    e.HasValue v := by
  refine ⟨h, ?_⟩
  split
  · next hheight =>
    rw [← h]
    exact endsIn_value hheight
  · next hheight =>
    have htrace : e.trace = .error .tooDeep :=
      Draft.trace_draft_of_interval_of_lt hover (Nat.lt_of_not_le hheight)
    refine ⟨(Draft.evaluate_eq_error_iff (Draft.knowsOperators_draft e.root)).2 htrace, ?_⟩
    rw [evaluation, htrace]
    rfl

end Expression

/-- An expression of meets has as value what its leaves have in common, and an expression of hulls
    what they span; what the leaves come to does not depend on their order, nor on the shape of the
    tree. -/
theorem interval_folds_ignore_order {text : String} {e : Expression}
    (hread : Expression.read .interval text = .ok e) :
    (Expr.HasOnly .inter e.root → ∃ is v, e.root.leaves = is.map .interval ∧
      Interval.IsMeetOf is v ∧ e.HasValue (.interval v)) ∧
      (Expr.HasOnly .union e.root → ∃ is v, e.root.leaves = is.map .interval ∧
        Interval.IsHullOf is v ∧ e.HasValue (.interval v)) ∧
      (∀ op text' f, op.domain = .interval → Expression.read .interval text' = .ok f →
        Expr.HasOnly op e.root → Expr.HasOnly op f.root → e.root.leaves.Perm f.root.leaves →
        ∃ v, e.HasValue (.interval v) ∧ f.HasValue (.interval v)) ∧
      ∀ i, Interval.meet .empty i = .empty ∧ Interval.meet i .empty = .empty := by
  have hover := (Expression.isOver_of_read hread).2
  refine ⟨fun honly => ?_, fun honly => ?_, fun op text' f hop hread' honly honly' hperm => ?_,
    fun i => ⟨Interval.empty_meet i, Interval.meet_empty i⟩⟩
  · obtain ⟨is, v, his, hv, hvalue⟩ := Expr.exists_value_isMeetOf hover honly
    exact ⟨is, v, his, hv, Expression.hasValue_of_value hover hvalue⟩
  · obtain ⟨is, v, his, hv, hvalue⟩ := Expr.exists_value_isHullOf hover honly
    exact ⟨is, v, his, hv, Expression.hasValue_of_value hover hvalue⟩
  · have hover' := (Expression.isOver_of_read hread').2
    obtain ⟨v, hv, -⟩ := Expr.value_of_isOver_interval hover
    have hsame := Expr.value_eq_of_leaves_perm hop hover hover' honly honly' hperm
    rw [hv] at hsame
    exact ⟨v, Expression.hasValue_of_value hover hv, Expression.hasValue_of_value hover' hsame.symm⟩

/-- Three intervals in two shapes and orders. In the one, the marked interval of the first two
    meets an interval at the least bound; in the other, the two that meet first have integers in
    common. -/
theorem interval_folds_ignore_order_of_three :
    ∃ e f, Expression.read .interval "1,2 3,4 I -2147483648,5 I" = .ok e ∧
      Expression.read .interval "3,4 -2147483648,5 1,2 I I" = .ok f ∧
      Expr.HasOnly .inter e.root ∧ Expr.HasOnly .inter f.root ∧
      e.root.leaves.Perm f.root.leaves ∧
      e.HasValue (.interval .empty) ∧ f.HasValue (.interval .empty) := by
  let a : Expr := .leaf (.interval ⟨1, 2, by decide, by decide, by decide⟩)
  let b : Expr := .leaf (.interval ⟨3, 4, by decide, by decide, by decide⟩)
  let c : Expr := .leaf (.interval ⟨-2147483648, 5, by decide, by decide, by decide⟩)
  have hread : Expression.read .interval "1,2 3,4 I -2147483648,5 I" =
      .ok ⟨.interval, .node .inter (.node .inter a b) c, "1,2 3,4 I -2147483648,5 I"⟩ := by
    decide +kernel
  have hread' : Expression.read .interval "3,4 -2147483648,5 1,2 I I" =
      .ok ⟨.interval, .node .inter b (.node .inter c a), "3,4 -2147483648,5 1,2 I I"⟩ := by
    decide +kernel
  have honly : Expr.HasOnly .inter (.node .inter (.node .inter a b) c) := by decide
  have honly' : Expr.HasOnly .inter (.node .inter b (.node .inter c a)) := by decide
  have hperm : (Tree.leaves (.node .inter (.node .inter a b) c)).Perm
      (Tree.leaves (.node .inter b (.node .inter c a))) := by decide
  obtain ⟨v, hv, hv'⟩ :=
    (interval_folds_ignore_order hread).2.2.1 .inter _ _ rfl hread' honly honly' hperm
  have hempty : Expr.value (.node .inter (.node .inter a b) c) = .ok (.interval .empty) := rfl
  cases hempty.symm.trans hv.value_eq
  exact ⟨_, _, hread, hread', honly, honly', hperm, hv, hv'⟩

end ReversePolish
