import ReversePolish.Proofs.IntervalFolds
import ReversePolish.Proofs.Surfaces

set_option autoImplicit false

/-! # The flag for an empty meet

The marked interval is told by its bounds, and an interval that does hold the least integer and
nothing else has the same ones. So the flag of a value is that of an empty meet at the root in all
cases but three, and these show in the values of the operands: a literal with the bounds of the
marked interval, a hull of two intervals with these bounds, and a meet in the least integer alone.
The service puts the flag into every answer that has a value, and the summary of the command line
puts it behind the value. -/

namespace ReversePolish

/-! ## Integers of an interval -/

instance : Membership Int Interval where
  mem i n := i.lower ≤ n ∧ n ≤ i.upper

namespace Interval

variable {a b i : Interval} {n : Int}

theorem mem_iff : n ∈ i ↔ i.lower ≤ n ∧ n ≤ i.upper := Iff.rfl

theorem mem_and_mem_iff : n ∈ a ∧ n ∈ b ↔ max a.lower b.lower ≤ n ∧ n ≤ min a.upper b.upper := by
  simp only [mem_iff]
  omega

theorem isEmpty_iff : i.isEmpty = true ↔ i = empty := by
  rw [isEmpty, Bool.and_eq_true, beq_iff_eq, beq_iff_eq]
  constructor
  · rintro ⟨hlower, hupper⟩
    exact eq_of_bounds hlower hupper
  · rintro rfl
    exact ⟨lower_empty, upper_empty⟩

/-- An interval that goes no further than the least integer is the marked one. -/
theorem eq_empty_iff : i = empty ↔ i.upper ≤ minBound := by
  constructor
  · rintro rfl
    exact upper_empty.le
  · intro h
    have hmin := i.minBound_le
    have hle := i.lower_le_upper
    refine eq_of_bounds ?_ ?_
    · rw [lower_empty]
      omega
    · rw [upper_empty]
      omega

theorem hull_eq_empty_iff : a.hull b = empty ↔ a = empty ∧ b = empty := by
  rw [eq_empty_iff, eq_empty_iff, eq_empty_iff, upper_hull, max_le_iff]

/-- A meet is the marked interval if there is nothing in it, or the least integer alone. -/
theorem meet_eq_empty_iff :
    a.meet b = empty ↔ (∀ n, ¬ (n ∈ a ∧ n ∈ b)) ∨ ∀ n, n ∈ a ∧ n ∈ b ↔ n = minBound := by
  have hmin := a.minBound_le
  simp only [mem_and_mem_iff]
  by_cases h : max a.lower b.lower ≤ min a.upper b.upper
  · rw [eq_empty_iff, upper_meet h]
    constructor
    · intro hupper
      refine .inr fun n => ?_
      omega
    · rintro (hnone | hleast)
      · exact absurd ⟨h, le_refl _⟩ (hnone _)
      · exact ((hleast _).1 ⟨h, le_refl _⟩).le
  · refine iff_of_true (meet_eq_empty (not_le.1 h)) (.inl fun n => ?_)
    omega

end Interval

/-! ## Values with the flag -/

namespace Expr

/-- The root is a meet, and the values that meet have no integer in common. -/
inductive MeetsInNothing : Expr → Prop where
  | inter {l r : Expr} {i j : Interval} (left : Expr.value l = .ok (.interval i))
      (right : Expr.value r = .ok (.interval j)) (nothing : ∀ n, ¬ (n ∈ i ∧ n ∈ j)) :
      MeetsInNothing (.node .inter l r)

/-- The root has the bounds of the marked interval, and no empty meet is the reason. -/
inductive HasBoundsOfEmpty : Expr → Prop where
  | leaf : HasBoundsOfEmpty (.leaf (.interval .empty))
  | union {l r : Expr} (left : Expr.value l = .ok (.interval .empty))
      (right : Expr.value r = .ok (.interval .empty)) : HasBoundsOfEmpty (.node .union l r)
  | inter {l r : Expr} {i j : Interval} (left : Expr.value l = .ok (.interval i))
      (right : Expr.value r = .ok (.interval j)) (least : ∀ n, n ∈ i ∧ n ∈ j ↔ n = minBound) :
      HasBoundsOfEmpty (.node .inter l r)

variable {e : Expr} {v : Interval}

theorem value_eq_empty_iff (hover : Expr.IsOver .interval e) :
    Expr.value e = .ok (.interval .empty) ↔ MeetsInNothing e ∨ HasBoundsOfEmpty e := by
  cases e with
  | leaf l =>
    constructor
    · intro h
      cases l with
      | number x => cases h
      | interval i =>
        cases h
        exact .inr .leaf
    · rintro (h | h)
      · cases h
      · cases h
        rfl
  | node op l r =>
    obtain ⟨hl, hr, hop⟩ := Expr.isOver_node.1 hover
    obtain ⟨i, hi, -⟩ := Expr.value_of_isOver_interval hl
    obtain ⟨j, hj, -⟩ := Expr.value_of_isOver_interval hr
    cases op with
    | union =>
      have hvalue : Expr.value (.node .union l r) = .ok (.interval (i.hull j)) :=
        Expr.value_node_eq_ok_iff.2 ⟨_, _, hi, hj, rfl⟩
      rw [hvalue, Except.ok.injEq, Operand.interval.injEq, Interval.hull_eq_empty_iff]
      constructor
      · rintro ⟨rfl, rfl⟩
        exact .inr (.union hi hj)
      · rintro (h | h)
        · cases h
        · cases h with
          | union left right =>
            cases hi.symm.trans left
            cases hj.symm.trans right
            exact ⟨rfl, rfl⟩
    | inter =>
      have hvalue : Expr.value (.node .inter l r) = .ok (.interval (i.meet j)) :=
        Expr.value_node_eq_ok_iff.2 ⟨_, _, hi, hj, rfl⟩
      rw [hvalue, Except.ok.injEq, Operand.interval.injEq, Interval.meet_eq_empty_iff]
      refine or_congr ⟨.inter hi hj, fun h => ?_⟩ ⟨.inter hi hj, fun h => ?_⟩
      · cases h with
        | inter left right nothing =>
          cases hi.symm.trans left
          cases hj.symm.trans right
          exact nothing
      · cases h with
        | inter left right least =>
          cases hi.symm.trans left
          cases hj.symm.trans right
          exact least
    | add | sub | mul | div => cases hop

end Expr

/-! ## The flag in the service -/

section Reports

variable {text : String} {e : Expression} {v : Interval}

/-- An expression over intervals is traced to its value or above the limit. -/
theorem Expression.HasValue.trace_eq (h : e.HasValue (.interval v))
    (hheight : e.root.height ≤ maxDepth) :
    ∃ t, e.trace = .ok t ∧ t.value = .interval v := by
  have hends := h.endsIn.2
  rw [if_pos hheight] at hends
  obtain ⟨r, hr, hvalue⟩ := map_eq_ok_iff.1 hends
  obtain ⟨t, ht, hrt⟩ := bind_eq_ok_iff.1 hr
  cases hrt
  exact ⟨t, ht, hvalue⟩

namespace Service

/-- The flag stands in every answer that has a value, and in no other. -/
theorem field?_isEmpty {s : Settings} {o : Order} {body : Body} (hbody : Order.ofBody body = .ok o)
    (hread : Expression.read (o.domainUnder s) o.text = .ok e) (h : e.HasValue (.interval v)) :
    (post s .evaluate body).field? "is_empty" =
      if o.Fits s ∧ e.root.height ≤ maxDepth then some (.bool v.isEmpty) else none := by
  obtain ⟨p, q, hanswered⟩ := Order.exists_answered s o
  rw [((answered_iff hbody).1 hanswered).1]
  cases hanswered with
  | tooLong not_fits =>
    rw [if_neg fun hboth => not_fits hboth.1]
    rfl
  | syntaxError _ read_eq => cases hread.symm.trans read_eq
  | broken _ stops => cases hread.symm.trans (diagnosis_tooManyDigits_iff.2 stops).read?_eq
  | value fits read_eq height_le evaluation_eq =>
    cases hread.symm.trans read_eq
    obtain ⟨t, ht, hvalue⟩ := h.trace_eq height_le
    rw [Expression.evaluation, ht] at evaluation_eq
    cases evaluation_eq
    rw [if_pos ⟨fits, height_le⟩]
    change some (Json.bool t.value.isEmpty) = _
    rw [hvalue]
    rfl
  | zeroDivisor _ read_eq height_le evaluation_eq =>
    cases hread.symm.trans read_eq
    obtain ⟨t, ht, -⟩ := h.trace_eq height_le
    rw [Expression.evaluation, ht] at evaluation_eq
    cases evaluation_eq
  | zeroDivisorInDepth _ read_eq lt_height =>
    cases hread.symm.trans read_eq
    rw [if_neg fun hboth => Nat.not_le.2 lt_height hboth.2]
    rfl
  | tooDeep _ read_eq lt_height =>
    cases hread.symm.trans read_eq
    rw [if_neg fun hboth => Nat.not_le.2 lt_height hboth.2]
    rfl

end Service

/-! ## The flag in the summary -/

namespace CommandLine

theorem outText_remark (level : LogLevel) (origin text : String) :
    String.join ((remark level origin text).map Write.outText) = "" := by
  unfold remark
  split
  · simp only [List.map_cons, List.map_nil, String.join_cons, String.join_nil, Write.outText,
      String.empty_append]
  · rfl

/-- Remarks leave standard output to the table and the diagram. -/
theorem out_reportText_summary {level : LogLevel} {d : Domain} {t : Trace}
    (hread : Expression.read d text = .ok e) (hheight : e.root.height ≤ maxDepth)
    (ht : e.trace = .ok t) :
    ((reportText level .utf8 .summary d text).deliver .utf8).out =
      summaryText e (shownValue t) := by
  have hreport : reportSummary level .utf8 e =
      reportTable .utf8 e (shownValue t) (Expr.labels e.root).rendering
        ⟨e.root.height, e.root.leafCount, e.root.operatorCount⟩ := by
    rw [reportSummary, Expression.render_of_le hheight, Expression.stats?_of_le hheight, ht]
  have htable := deliver_reportTable e (shownValue t) (Expr.labels e.root).rendering
    ⟨e.root.height, e.root.leafCount, e.root.operatorCount⟩
  rw [reportText_of_ok hread, reportCommand, hreport]
  rw [Report.deliver, deliverWrites_utf8] at htable ⊢
  obtain ⟨hout, -, -⟩ := Delivery.mk.inj htable
  rw [Report.after, List.map_append, String.join_append, hout, readingRemark, outText_remark,
    String.empty_append]
  rfl

/-- The summary shows the text of the value, and the words for an empty meet behind it where the
    value has the flag. -/
theorem out_run_summary {environment : List (String × String)} {file : Option String}
    {settings : Settings} {level : LogLevel}
    (hsettings : Settings.read environment file = .ok settings)
    (hlevel : LogLevel.ofName? settings.logLevel = some level)
    (hread : Expression.read .interval text = .ok e) (hheight : e.root.height ≤ maxDepth)
    (h : e.HasValue (.interval v)) (input : String) :
    (run ⟨environment, file, callOn .summary .interval text, input, .utf8⟩).out =
      summaryText e (if v.isEmpty then v.text ++ " (puste przecięcie)" else v.text) := by
  obtain ⟨t, ht, hvalue⟩ := h.trace_eq hheight
  rw [run_callOn hsettings hlevel (ne_markerText_of_read hread),
    out_reportText_summary hread hheight ht, shownValue, Trace.display, hvalue]
  rfl

end CommandLine

end Reports

open CommandLine Service

/-- The value has the flag exactly where the root is a meet of values without a common integer, or
    where it has the bounds of the marked interval all the same; the service and the summary report
    the flag as the value has it. -/
theorem empty_flag_tells_bounds {text : String} {e : Expression}
    (hread : Expression.read .interval text = .ok e) :
    ∃ v, e.HasValue (.interval v) ∧
      (v.isEmpty = true ↔ Expr.MeetsInNothing e.root ∨ Expr.HasBoundsOfEmpty e.root) ∧
      (∀ s o body, Order.ofBody body = .ok o → o.domainUnder s = .interval → o.text = text →
        (post s .evaluate body).field? "is_empty" =
          if o.Fits s ∧ e.root.height ≤ maxDepth then some (.bool v.isEmpty) else none) ∧
      ∀ environment file settings level input, Settings.read environment file = .ok settings →
        LogLevel.ofName? settings.logLevel = some level → e.root.height ≤ maxDepth →
        (run ⟨environment, file, callOn .summary .interval text, input, .utf8⟩).out =
          summaryText e (if v.isEmpty then v.text ++ " (puste przecięcie)" else v.text) := by
  have hover := (Expression.isOver_of_read hread).2
  obtain ⟨v, hv, -⟩ := Expr.value_of_isOver_interval hover
  have hvalue := Expression.hasValue_of_value hover hv
  refine ⟨v, hvalue, ?_, fun s o body hbody hdomain htext => ?_,
    fun environment file settings level input hsettings hlevel hheight => ?_⟩
  · rw [Interval.isEmpty_iff, ← Expr.value_eq_empty_iff hover, hv, Except.ok.injEq,
      Operand.interval.injEq]
  · exact field?_isEmpty hbody (by rw [hdomain, htext, hread]) hvalue
  · exact out_run_summary hsettings hlevel hread hheight hvalue input

/-- A meet of two intervals without a common integer has the flag, which the service answers with
    and the summary shows. -/
theorem empty_flag_tells_bounds_of_meet :
    let text := "1,2 3,4 I"
    let body : Body := .json (.object [("text", .string text), ("domain", .string "interval")])
    ∃ e, Expression.read .interval text = .ok e ∧ Expr.MeetsInNothing e.root ∧
      Order.ofBody body = .ok ⟨text, some .interval⟩ ∧
      e.HasValue (.interval .empty) ∧
      (post .default .evaluate body).field? "is_empty" = some (.bool true) ∧
      (run ⟨[], none, callOn .summary .interval text, "", .utf8⟩).out =
        summaryText e (Interval.text .empty ++ " (puste przecięcie)") := by
  intro text body
  let root : Expr := .node .inter (.leaf (.interval ⟨1, 2, by decide, by decide, by decide⟩))
    (.leaf (.interval ⟨3, 4, by decide, by decide, by decide⟩))
  have hread : Expression.read .interval text = .ok ⟨.interval, root, text⟩ := by decide +kernel
  have hbody : Order.ofBody body = .ok ⟨text, some .interval⟩ := by decide +kernel
  have hnothing : Expr.MeetsInNothing root := by
    refine .inter rfl rfl fun n hn => ?_
    have hupper : n ≤ 2 := hn.1.2
    have hlower : 3 ≤ n := hn.2.1
    omega
  obtain ⟨v, hv, hflag, hservice, hsummary⟩ := empty_flag_tells_bounds hread
  have hempty := hflag.2 (.inl hnothing)
  obtain rfl := Interval.isEmpty_iff.1 hempty
  have hanswer := hservice .default _ body hbody rfl rfl
  rw [if_pos (by decide)] at hanswer
  have hsettings : Settings.read [] none = .ok .default := by decide +kernel
  have hlevel : LogLevel.ofName? Settings.default.logLevel = some .info := by decide +kernel
  have hshown := hsummary [] none .default .info "" hsettings hlevel (by decide)
  exact ⟨_, hread, hnothing, hbody, hv, hanswer, hshown⟩

/-- A literal can have the bounds of the marked interval. Nothing meets in it, and still it has the
    flag, also in the answer of the service. -/
theorem empty_flag_of_least_integer :
    let text := "-2147483648,-2147483648"
    let body : Body := .json (.object [("text", .string text), ("domain", .string "interval")])
    ∃ e v, Expression.read .interval text = .ok e ∧ e.evaluate = .ok (.interval v) ∧
      (post .default .evaluate body).field? "is_empty" = some (.bool v.isEmpty) ∧
      ¬ (v.isEmpty = true ↔ Expr.MeetsInNothing e.root) := by
  intro text body
  have hread : Expression.read .interval text =
      .ok ⟨.interval, .leaf (.interval .empty), text⟩ := by decide +kernel
  have hbody : Order.ofBody body = .ok ⟨text, some .interval⟩ := by decide +kernel
  have hvalue : Expression.HasValue ⟨.interval, .leaf (.interval .empty), text⟩
      (.interval .empty) :=
    Expression.hasValue_of_value (Expression.isOver_of_read hread).2 rfl
  have hanswer := field?_isEmpty hbody (s := .default) hread hvalue
  rw [if_pos (by decide)] at hanswer
  refine ⟨_, _, hread, hvalue.endsIn.1, hanswer, fun h => ?_⟩
  have hmeets : Expr.MeetsInNothing (.leaf (.interval .empty)) := h.1 rfl
  cases hmeets

end ReversePolish
