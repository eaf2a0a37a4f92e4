import Mathlib.Order.MinMax
import ReversePolish.Blueprint
import ReversePolish.Proofs.Typing

set_option autoImplicit false

/-! # Safe evaluation

Typing says that a tree over a domain has a value of the domain or divides by zero. Here is the
converse: an operator only has a result on two values of its domain, so a tree with a value is
over the domain of its value, and no divisor in it is zero. Together they tell the trees with a
value from their shape alone, also where a tree mixes the domains.

Intervals are never refused on the way: the bounds of a hull or of a meet are in range and in
order, and they come from the leaves, or from the marked interval. -/

namespace ReversePolish

variable {d : Domain} {e : Expr}

/-! ## Trees with a value -/

/-- Some division in the tree has a divisor whose value is zero. -/
def Expr.HasZeroDivisor : Expr → Prop
  | .leaf _ => False
  | .node op l r =>
    Expr.HasZeroDivisor l ∨ Expr.HasZeroDivisor r ∨
      (op = .div ∧ ∃ v, Expr.value r = .ok v ∧ v.isZero = true)

/-- An operator with a result has two values of its domain, and its result is another one. -/
theorem Operator.domain_of_apply {op : Operator} {a b v : Operand} (h : op.apply a b = .ok v) :
    a.domain = op.domain ∧ b.domain = op.domain ∧ v.domain = op.domain := by
  cases op with
  | div =>
    simp only [Operator.apply] at h
    split at h
    · cases h
    · cases a <;> cases b <;> cases h
      exact ⟨rfl, rfl, rfl⟩
  | add | sub | mul | union | inter =>
    cases a <;> cases b <;> cases h
    exact ⟨rfl, rfl, rfl⟩

theorem Expr.value_node_eq_ok_iff {op : Operator} {l r : Expr} {v : Operand} :
    Expr.value (.node op l r) = .ok v ↔
      ∃ a b, Expr.value l = .ok a ∧ Expr.value r = .ok b ∧ op.apply a b = .ok v := by
  rw [Expr.value]
  constructor
  · intro h
    obtain ⟨a, ha, h⟩ := bind_eq_ok_iff.1 h
    obtain ⟨b, hb, h⟩ := bind_eq_ok_iff.1 h
    exact ⟨a, b, ha, hb, h⟩
  · rintro ⟨a, b, ha, hb, h⟩
    rw [ha, ok_bind, hb, ok_bind, h]

/-- A tree with a value is over the domain of the value. -/
theorem Expr.isOver_of_value {v : Operand} (h : Expr.value e = .ok v) : Expr.IsOver v.domain e := by
  induction e generalizing v with
  | leaf l =>
    cases h
    exact Expr.isOver_leaf.2 rfl
  | node op l r ihl ihr =>
    obtain ⟨a, b, ha, hb, hv⟩ := Expr.value_node_eq_ok_iff.1 h
    obtain ⟨hda, hdb, hdv⟩ := Operator.domain_of_apply hv
    have hl := ihl ha
    have hr := ihr hb
    rw [hda, ← hdv] at hl
    rw [hdb, ← hdv] at hr
    exact Expr.isOver_node.2 ⟨hl, hr, hdv.symm⟩

theorem Expr.not_hasZeroDivisor_of_value {v : Operand} (h : Expr.value e = .ok v) :
    ¬ Expr.HasZeroDivisor e := by
  induction e generalizing v with
  | leaf l => exact not_false
  | node op l r ihl ihr =>
    obtain ⟨a, b, ha, hb, hv⟩ := Expr.value_node_eq_ok_iff.1 h
    rintro (hl | hr | ⟨hop, c, hc, hzero⟩)
    · exact ihl ha hl
    · exact ihr hb hr
    · -- the divisor is the right value, and the operator would have stopped at it
      rw [hb] at hc
      cases hc
      rw [Operator.apply_eq_divisionByZero_iff.2 ⟨⟨hop, hzero⟩, rfl, rfl⟩] at hv
      cases hv

/-- A tree that divides by zero has the divisor that does. -/
theorem Expr.hasZeroDivisor_of_value {x y : Operand}
    (h : Expr.value e = .error (.divisionByZero x y)) : Expr.HasZeroDivisor e := by
  induction e with
  | leaf l => cases h
  | node op l r ihl ihr =>
    rw [Expr.value] at h
    cases ha : Expr.value l with
    | error f =>
      rw [ha, error_bind] at h
      cases h
      exact .inl (ihl ha)
    | ok a =>
      cases hb : Expr.value r with
      | error f =>
        rw [ha, ok_bind, hb, error_bind] at h
        cases h
        exact .inr (.inl (ihr hb))
      | ok b =>
        rw [ha, ok_bind, hb, ok_bind] at h
        obtain ⟨⟨hop, hzero⟩, -, -⟩ := Operator.apply_eq_divisionByZero_iff.1 h
        exact .inr (.inr ⟨hop, b, hb, hzero⟩)

theorem Expr.value_of_isOver (h : Expr.IsOver d e) :
    (∃ a b, Expr.value e = .error (.divisionByZero a b)) ∨
      ∃ v, Expr.value e = .ok v ∧ v.domain = d := by
  rw [Expr.value_eq_map_trace]
  rcases Expr.trace_of_isOver h with ⟨a, b, hfail⟩ | ⟨t, ht, hd⟩
  · left
    exact ⟨a, b, by rw [hfail]; rfl⟩
  · right
    exact ⟨t.value, by rw [ht]; rfl, hd⟩

/-- The trees with a value are those over a domain in which no divisor is zero. -/
theorem Expr.exists_value_iff :
    (∃ v, Expr.value e = .ok v) ↔ (∃ d, Expr.IsOver d e) ∧ ¬ Expr.HasZeroDivisor e := by
  constructor
  · rintro ⟨v, hv⟩
    exact ⟨⟨v.domain, Expr.isOver_of_value hv⟩, Expr.not_hasZeroDivisor_of_value hv⟩
  · rintro ⟨⟨d, hd⟩, hzero⟩
    rcases Expr.value_of_isOver hd with ⟨a, b, hfail⟩ | ⟨v, hv, -⟩
    · exact absurd (Expr.hasZeroDivisor_of_value hfail) hzero
    · exact ⟨v, hv⟩

/-! ## The bounds of intervals -/

/-- The bounds of an interval. -/
def Literal.bounds : Literal → List Int
  | .number _ => []
  | .interval i => [i.lower, i.upper]

/-- The bounds of all intervals at the leaves. -/
def Expr.bounds (e : Expr) : List Int :=
  (Tree.leaves e).flatMap Literal.bounds

namespace Interval

/-- Both bounds are among the given integers or the least one. -/
def IsBoundedBy (bounds : List Int) (i : Interval) : Prop :=
  (i.lower ∈ bounds ∨ i.lower = minBound) ∧ (i.upper ∈ bounds ∨ i.upper = minBound)

variable {bs cs : List Int} {a b : Interval}

theorem IsBoundedBy.mono (h : a.IsBoundedBy bs) (hsub : ∀ c ∈ bs, c ∈ cs) : a.IsBoundedBy cs :=
  ⟨h.1.imp_left (hsub _), h.2.imp_left (hsub _)⟩

theorem IsBoundedBy.hull (ha : a.IsBoundedBy bs) (hb : b.IsBoundedBy bs) :
    (a.hull b).IsBoundedBy bs := by
  constructor
  · exact min_rec' (fun c => c ∈ bs ∨ c = minBound) ha.1 hb.1
  · exact max_rec' (fun c => c ∈ bs ∨ c = minBound) ha.2 hb.2

theorem IsBoundedBy.meet (ha : a.IsBoundedBy bs) (hb : b.IsBoundedBy bs) :
    (a.meet b).IsBoundedBy bs := by
  by_cases h : max a.lower b.lower ≤ min a.upper b.upper
  · constructor
    · rw [lower_meet h]
      exact max_rec' (fun c => c ∈ bs ∨ c = minBound) ha.1 hb.1
    · rw [upper_meet h]
      exact min_rec' (fun c => c ∈ bs ∨ c = minBound) ha.2 hb.2
  · rw [meet_eq_empty (not_le.1 h)]
    exact ⟨.inr rfl, .inr rfl⟩

/-- The checks on bounds let those of a hull pass. -/
theorem ofBounds?_hull :
    ofBounds? (min a.lower b.lower) (max a.upper b.upper) = some (a.hull b) :=
  ofBounds?_eq_some_iff.2 ⟨rfl, rfl⟩

/-- The checks on bounds let those of a meet pass, unless there is no common integer. -/
theorem ofBounds?_meet (h : max a.lower b.lower ≤ min a.upper b.upper) :
    ofBounds? (max a.lower b.lower) (min a.upper b.upper) = some (a.meet b) :=
  ofBounds?_eq_some_iff.2 ⟨lower_meet h, upper_meet h⟩

end Interval

/-- A tree over intervals has an interval for its value, whose bounds come from the leaves. -/
theorem Expr.value_of_isOver_interval (h : Expr.IsOver .interval e) :
    ∃ i, Expr.value e = .ok (.interval i) ∧ i.IsBoundedBy (Expr.bounds e) := by
  induction e with
  | leaf l =>
    cases l with
    | number x => cases Expr.isOver_leaf.1 h
    | interval i =>
      refine ⟨i, rfl, .inl ?_, .inl ?_⟩
      · simp [Expr.bounds, Tree.leaves, Literal.bounds]
      · simp [Expr.bounds, Tree.leaves, Literal.bounds]
  | node op l r ihl ihr =>
    obtain ⟨hl, hr, hop⟩ := Expr.isOver_node.1 h
    obtain ⟨i, hi, hib⟩ := ihl hl
    obtain ⟨j, hj, hjb⟩ := ihr hr
    have hsplit : Expr.bounds (.node op l r) = Expr.bounds l ++ Expr.bounds r := by
      simp only [Expr.bounds, Tree.leaves, List.flatMap_append]
    have hib' := hib.mono fun b hb => hsplit ▸ List.mem_append_left (Expr.bounds r) hb
    have hjb' := hjb.mono fun b hb => hsplit ▸ List.mem_append_right (Expr.bounds l) hb
    cases op with
    | union =>
      exact ⟨i.hull j, Expr.value_node_eq_ok_iff.2 ⟨_, _, hi, hj, rfl⟩, hib'.hull hjb'⟩
    | inter =>
      exact ⟨i.meet j, Expr.value_node_eq_ok_iff.2 ⟨_, _, hi, hj, rfl⟩, hib'.meet hjb'⟩
    | add | sub | mul | div => cases hop

/-! ## Trees that are put together by hand -/

namespace Blueprint

theorem accept_true_eq_ok_iff {faults : List FaultReport} {t u : Draft} :
    accept true faults t = .ok u ↔ faults = [] ∧ t = u := by
  cases faults <;> simp [accept]

theorem ne_foreign_of_faultsAt {place : String} {t : Draft} (h : faultsAt place t = [])
    (s : String) : t ≠ .leaf (.foreign s) := by
  rintro rfl
  cases h

/-- With checks, what is built is a checked tree or a foreign text in the place of one. -/
theorem buildNode_cases {b : Blueprint} {t : Draft} (h : b.buildNode true = .ok t) :
    (∃ r : Expr, t = Expr.draft r) ∨ ∃ s, t = .leaf (.foreign s) := by
  induction b generalizing t with
  | number x =>
    obtain ⟨hfaults, rfl⟩ := accept_true_eq_ok_iff.1 h
    cases x with
    | finite x => exact .inl ⟨.leaf (.number x), rfl⟩
    | nan => cases hfaults
    | infinity s => cases hfaults
  | interval lower upper =>
    obtain ⟨i, -, hi⟩ := bind_eq_ok_iff.1 h
    cases hi
    exact .inl ⟨.leaf (.interval i), rfl⟩
  | operator symbol l r ihl ihr =>
    obtain ⟨tl, hl, h⟩ := bind_eq_ok_iff.1 h
    obtain ⟨tr, hr, h⟩ := bind_eq_ok_iff.1 h
    obtain ⟨hfaults, rfl⟩ := accept_true_eq_ok_iff.1 h
    obtain ⟨hleft, hright⟩ := List.append_eq_nil_iff.1 hfaults
    obtain ⟨hsymbol, hleft⟩ := List.append_eq_nil_iff.1 hleft
    obtain ⟨el, rfl⟩ := (ihl hl).resolve_right fun ⟨s, hs⟩ => ne_foreign_of_faultsAt hleft s hs
    obtain ⟨er, rfl⟩ := (ihr hr).resolve_right fun ⟨s, hs⟩ => ne_foreign_of_faultsAt hright s hs
    cases hop : Operator.ofSymbol? symbol with
    | none =>
      rw [hop] at hsymbol
      cases hsymbol
    | some op =>
      rw [← Operator.symbol_of_ofSymbol? hop]
      exact .inl ⟨.node op el er, rfl⟩
  | foreign s =>
    cases h
    exact .inr ⟨s, rfl⟩

theorem exists_draft_of_build {b : Blueprint} {t : Draft} (h : b.build true = .ok t) :
    ∃ r : Expr, t = Expr.draft r := by
  obtain ⟨u, hu, h⟩ := bind_eq_ok_iff.1 h
  obtain ⟨hfaults, rfl⟩ := accept_true_eq_ok_iff.1 h
  exact (buildNode_cases hu).resolve_right fun ⟨s, hs⟩ => ne_foreign_of_faultsAt hfaults s hs

end Blueprint

/-! ## Expressions -/

namespace Expression

/-- Evaluation, with steps and without, fails with the error or has the value. -/
def EndsIn (e : Expression) (outcome : Except EvaluationError Operand) : Prop :=
  e.evaluate = outcome ∧ e.evaluation.map (·.trace.value) = outcome

theorem endsIn_value {e : Expression} (h : e.root.height ≤ maxDepth) :
    e.EndsIn (Expr.value e.root) := by
  refine ⟨evaluate_eq h, ?_⟩
  rw [evaluation_eq h, Expr.value_eq_map_trace]
  cases Expr.trace e.root <;> rfl

/-- What evaluation comes to, for every expression. -/
structure EvaluatesSafely (e : Expression) : Prop where
  /-- There is a value exactly if the tree is over one domain and no divisor is zero. -/
  evaluate_iff : (∃ v, e.evaluate = .ok v) ↔
    (∃ d, Expr.IsOver d e.root) ∧ ¬ Expr.HasZeroDivisor e.root
  evaluation_iff : (∃ r, e.evaluation = .ok r) ↔
    (∃ d, Expr.IsOver d e.root) ∧ ¬ Expr.HasZeroDivisor e.root
  of_arithmetic : Expr.IsOver .arithmetic e.root →
    (∃ x, e.EndsIn (.ok (.number x))) ∨ ∃ a b, e.EndsIn (.error (.divisionByZero a b))
  of_interval : Expr.IsOver .interval e.root →
    ∃ i : Interval, e.EndsIn (.ok (.interval i)) ∧
      minBound ≤ i.lower ∧ i.lower ≤ i.upper ∧ i.upper ≤ maxBound ∧
      i.IsBoundedBy (Expr.bounds e.root)
  /-- What is read is over its domain, so it has a value or divides by zero. -/
  of_read : ∀ text, Expression.read e.domain text = .ok e →
    Expr.IsOver e.domain e.root ∧
      ((∃ v, e.EndsIn (.ok v)) ∨ ∃ a b, e.EndsIn (.error (.divisionByZero a b)))

theorem evaluatesSafely {e : Expression} (h : e.root.height ≤ maxDepth) : e.EvaluatesSafely := by
  have hends := endsIn_value h
  have hvalue : (∃ v, e.evaluate = .ok v) ↔ ∃ v, Expr.value e.root = .ok v := by rw [evaluate_eq h]
  have htrace : (∃ r, e.evaluation = .ok r) ↔ ∃ v, Expr.value e.root = .ok v := by
    rw [← hends.2]
    simp [map_eq_ok_iff]
  have hover : ∀ d, Expr.IsOver d e.root →
      (∃ v, e.EndsIn (.ok v) ∧ v.domain = d) ∨ ∃ a b, e.EndsIn (.error (.divisionByZero a b)) := by
    intro d hd
    rcases Expr.value_of_isOver hd with ⟨a, b, hfail⟩ | ⟨v, hv, hvd⟩
    · exact .inr ⟨a, b, hfail ▸ hends⟩
    · exact .inl ⟨v, hv ▸ hends, hvd⟩
  refine ⟨hvalue.trans Expr.exists_value_iff, htrace.trans Expr.exists_value_iff, ?_, ?_, ?_⟩
  · intro hd
    rcases hover _ hd with ⟨v, hv, hvd⟩ | hfail
    · cases v with
      | number x => exact .inl ⟨x, hv⟩
      | interval i => cases hvd
    · exact .inr hfail
  · intro hd
    obtain ⟨i, hi, hbounds⟩ := Expr.value_of_isOver_interval hd
    exact ⟨i, hi ▸ hends, i.minBound_le, i.lower_le_upper, i.le_maxBound, hbounds⟩
  · intro text hread
    obtain ⟨r, hr, he⟩ := read_eq_ok_iff.1 hread
    have hd : Expr.IsOver e.domain e.root := by
      rw [he]
      exact Expr.isOver_of_denotes (readTree_eq_ok_iff.1 hr)
    exact ⟨hd, (hover _ hd).imp_left fun ⟨v, hv, _⟩ => ⟨v, hv⟩⟩

end Expression

/-- The trees that the checks let pass are the checked trees, the checks let the intervals pass that
    operators make, and every expression that walks can follow evaluates safely. -/
theorem safe_evaluation :
    (∀ (b : Blueprint) (t : Draft), b.build true = .ok t → ∃ r : Expr, t = Expr.draft r) ∧
      (∀ i j : Interval,
        Interval.ofBounds? (min i.lower j.lower) (max i.upper j.upper) = some (i.hull j) ∧
          (max i.lower j.lower ≤ min i.upper j.upper →
            Interval.ofBounds? (max i.lower j.lower) (min i.upper j.upper) = some (i.meet j))) ∧
      ∀ e : Expression, e.root.height ≤ maxDepth → e.EvaluatesSafely := by
  refine ⟨fun b t => Blueprint.exists_draft_of_build, fun i j => ⟨?_, ?_⟩, fun e => ?_⟩
  · exact Interval.ofBounds?_hull
  · exact Interval.ofBounds?_meet
  · exact Expression.evaluatesSafely

/-- Checks let a tree pass that mixes the domains. Intervals without a common integer meet in the
    marked interval, whose bounds then count. -/
theorem safe_evaluation_marked :
    (∃ t, (Blueprint.operator "U" (.interval (.integer 1) (.integer 2))
        (.number (.zero true))).build true = .ok t ∧ ∃ r : Expr, t = Expr.draft r) ∧
      (∃ i j : Interval, max i.lower j.lower ≤ min i.upper j.upper ∧
        Interval.ofBounds? (max i.lower j.lower) (min i.upper j.upper) = some (i.meet j)) ∧
      ∃ e, Expression.read .interval "5,6 7,8 I 1,2 U" = .ok e ∧ e.root.height ≤ maxDepth ∧
        e.EvaluatesSafely ∧
        e.evaluate = .ok (.interval ⟨minBound, 2, by decide, by decide, by decide⟩) := by
  obtain ⟨hbuilt, hbounds, hsafe⟩ := safe_evaluation
  have hbuild : (Blueprint.operator "U" (.interval (.integer 1) (.integer 2))
      (.number (.zero true))).build true =
        .ok (.node "U" (.leaf (.operand (.interval ⟨1, 2, by decide, by decide, by decide⟩)))
          (.leaf (.operand (.number (.zero true))))) := by decide +kernel
  have hread : Expression.read .interval "5,6 7,8 I 1,2 U" =
      .ok ⟨.interval,
        .node .union
          (.node .inter (.leaf (.interval ⟨5, 6, by decide, by decide, by decide⟩))
            (.leaf (.interval ⟨7, 8, by decide, by decide, by decide⟩)))
          (.leaf (.interval ⟨1, 2, by decide, by decide, by decide⟩)),
        "5,6 7,8 I 1,2 U"⟩ := by decide +kernel
  refine ⟨⟨_, hbuild, hbuilt _ _ hbuild⟩,
    ⟨⟨1, 3, by decide, by decide, by decide⟩, ⟨2, 4, by decide, by decide, by decide⟩, by decide,
      (hbounds _ _).2 (by decide)⟩,
    ⟨_, hread, by decide, hsafe _ (by decide), by decide +kernel⟩⟩

end ReversePolish
