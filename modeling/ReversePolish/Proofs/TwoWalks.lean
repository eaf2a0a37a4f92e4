import ReversePolish.Evaluation
import ReversePolish.Proofs.Outcome

set_option autoImplicit false

/-! # The two walks agree

`evaluate` and `trace` go over the same draft, and a draft may hold anything: numbers and intervals
side by side, infinite numbers, symbols that name no operator, texts in the place of nodes. The
walks part in one thing only. `evaluate` looks an operator up before it enters the subtrees and
`trace` after it has left them, so an unknown symbol can hide an obstacle below it from the one
walk and be hidden by that obstacle from the other. A walk that reaches the root has met no unknown
symbol, and then the two have done the same. -/

namespace ReversePolish

namespace Draft

variable {limit : Nat} {t : Draft}

/-- The symbols at the inner nodes. -/
def symbols (t : Draft) : List String :=
  (Tree.postorder t).filterMap Sum.getLeft?

/-- Every symbol in the draft is that of an operator. -/
def KnowsOperators (t : Draft) : Prop :=
  ∀ symbol ∈ t.symbols, symbol ∈ Operator.all.map Operator.symbol

instance (t : Draft) : Decidable t.KnowsOperators :=
  inferInstanceAs (Decidable (∀ symbol ∈ t.symbols, symbol ∈ Operator.all.map Operator.symbol))

/-- The symbol stands in the draft and is that of no operator. -/
def HasUnknown (t : Draft) (symbol : String) : Prop :=
  symbol ∈ t.symbols ∧ symbol ∉ Operator.all.map Operator.symbol

@[simp] theorem symbols_node (symbol : String) (l r : Draft) :
    symbols (.node symbol l r) = l.symbols ++ r.symbols ++ [symbol] := by
  simp [symbols, Tree.postorder, List.filterMap_append]

/-- In a checked tree the symbols are those of operators. -/
theorem knowsOperators_draft (e : Expr) : KnowsOperators (Expr.draft e) := by
  have hall : ∀ op : Operator, op.symbol ∈ Operator.all.map Operator.symbol := fun op =>
    List.mem_map_of_mem (by cases op <;> decide)
  induction e with
  | leaf l => exact List.forall_mem_nil _
  | node op l r ihl ihr =>
    rw [KnowsOperators, Expr.draft_node, symbols_node]
    exact List.forall_mem_append.2
      ⟨List.forall_mem_append.2 ⟨ihl, ihr⟩, List.forall_mem_singleton.2 (hall op)⟩

theorem HasUnknown.left {symbol op : String} {l r : Draft} (h : l.HasUnknown symbol) :
    HasUnknown (.node op l r) symbol := by
  refine ⟨?_, h.2⟩
  simp [h.1]

theorem HasUnknown.right {symbol op : String} {l r : Draft} (h : r.HasUnknown symbol) :
    HasUnknown (.node op l r) symbol := by
  refine ⟨?_, h.2⟩
  simp [h.1]

/-! ## Looking operators up -/

/-- A look-up fails for a symbol that names no operator. -/
theorem lookUpOperator_eq_error {symbol : String} {f : EvaluationError}
    (h : lookUpOperator symbol = .error f) :
    f = .unknownOperator symbol ∧ symbol ∉ Operator.all.map Operator.symbol := by
  unfold lookUpOperator at h
  split at h
  · cases h
  · next hnone =>
    cases h
    refine ⟨rfl, fun hmem => ?_⟩
    obtain ⟨op, -, rfl⟩ := List.mem_map.1 hmem
    rw [Operator.ofSymbol?_symbol] at hnone
    cases hnone

/-! ## What one walk tells of the other -/

/-- Where the walk with steps reaches the root, the plain one does with the same value. -/
theorem evaluate_of_trace {s : Trace} (h : Draft.trace limit t = .ok s) :
    Draft.evaluate limit t = .ok s.value := by
  induction t generalizing limit s with
  | leaf p =>
    cases limit with
    | zero => cases h
    | succ n =>
      obtain ⟨v, hv, hs⟩ := bind_eq_ok_iff.1 h
      cases hs
      exact hv
  | node symbol l r ihl ihr =>
    cases limit with
    | zero => cases h
    | succ n =>
      obtain ⟨a, ha, h⟩ := bind_eq_ok_iff.1 h
      obtain ⟨b, hb, h⟩ := bind_eq_ok_iff.1 h
      obtain ⟨op, hop, h⟩ := bind_eq_ok_iff.1 h
      obtain ⟨v, hv, hs⟩ := bind_eq_ok_iff.1 h
      cases hs
      rw [Draft.evaluate, hop, ok_bind, ihl ha, ok_bind, ihr hb, ok_bind, hv]
      rfl

/-- Where the walk with steps stops, the plain one stops too: at the same obstacle, or before it at
    a symbol that names no operator. -/
theorem evaluate_of_trace_error {f : EvaluationError} (h : Draft.trace limit t = .error f) :
    Draft.evaluate limit t = .error f ∨
      ∃ symbol, t.HasUnknown symbol ∧
        Draft.evaluate limit t = .error (.unknownOperator symbol) := by
  induction t generalizing limit f with
  | leaf p =>
    left
    cases limit with
    | zero =>
      cases h
      rfl
    | succ n =>
      cases p with
      | operand v => cases h
      | foreign s =>
        cases h
        rfl
  | node symbol l r ihl ihr =>
    cases limit with
    | zero =>
      cases h
      exact .inl rfl
    | succ n =>
      rw [Draft.evaluate]
      cases hop : lookUpOperator symbol with
      | error g =>
        -- the plain walk stops here, whatever lies below
        obtain ⟨rfl, hnot⟩ := lookUpOperator_eq_error hop
        right
        refine ⟨symbol, ⟨?_, hnot⟩, rfl⟩
        simp
      | ok op =>
        rw [Draft.trace, hop] at h
        rw [ok_bind]
        cases ha : Draft.trace n l with
        | error g =>
          rw [ha, error_bind] at h
          cases h
          rcases ihl ha with hl | ⟨u, hu, hl⟩
          · exact .inl (by rw [hl, error_bind])
          · exact .inr ⟨u, hu.left, by rw [hl, error_bind]⟩
        | ok a =>
          rw [ha, ok_bind] at h
          rw [evaluate_of_trace ha, ok_bind]
          cases hb : Draft.trace n r with
          | error g =>
            rw [hb, error_bind] at h
            cases h
            rcases ihr hb with hr | ⟨u, hu, hr⟩
            · exact .inl (by rw [hr, error_bind])
            · exact .inr ⟨u, hu.right, by rw [hr, error_bind]⟩
          | ok b =>
            -- both subtrees have values, so what is left is the application
            rw [hb, ok_bind, ok_bind] at h
            rw [evaluate_of_trace hb, ok_bind]
            left
            cases hv : op.apply a.value b.value with
            | error g =>
              rw [hv, error_bind] at h
              cases h
              rfl
            | ok v =>
              rw [hv, ok_bind] at h
              cases h

theorem evaluate_eq_ok_iff {v : Operand} :
    Draft.evaluate limit t = .ok v ↔ ∃ s, Draft.trace limit t = .ok s ∧ s.value = v := by
  constructor
  · intro h
    cases hs : Draft.trace limit t with
    | ok s =>
      rw [evaluate_of_trace hs] at h
      exact ⟨s, rfl, Except.ok.inj h⟩
    | error f =>
      rcases evaluate_of_trace_error hs with hf | ⟨u, -, hf⟩
      · rw [hf] at h
        cases h
      · rw [hf] at h
        cases h
  · rintro ⟨s, hs, rfl⟩
    exact evaluate_of_trace hs

theorem evaluate_eq_error_iff (hknown : t.KnowsOperators) {f : EvaluationError} :
    Draft.evaluate limit t = .error f ↔ Draft.trace limit t = .error f := by
  constructor
  · intro h
    cases hs : Draft.trace limit t with
    | ok s =>
      rw [evaluate_of_trace hs] at h
      cases h
    | error g =>
      rcases evaluate_of_trace_error hs with hg | ⟨u, hu, -⟩
      · rw [h] at hg
        rw [Except.error.inj hg]
      · exact absurd (hknown u hu.1) hu.2
  · intro h
    rcases evaluate_of_trace_error h with hf | ⟨u, hu, -⟩
    · exact hf
    · exact absurd (hknown u hu.1) hu.2

/-- On every draft the two walks have a value together, the same one, which the trace displays in its
    canonical text. They fail together too, and if every symbol in the draft is that of an operator,
    they fail with the same error; otherwise the plain walk may stop at an unknown symbol instead. -/
theorem two_walks_agree (limit : Nat) (t : Draft) :
    ((∃ s, Draft.trace limit t = .ok s) ↔ ∃ v, Draft.evaluate limit t = .ok v) ∧
      (∀ s, Draft.trace limit t = .ok s →
        Draft.evaluate limit t = .ok s.value ∧ s.display = s.value.text) ∧
      (t.KnowsOperators →
        ∀ f, Draft.trace limit t = .error f ↔ Draft.evaluate limit t = .error f) ∧
      ∀ f, Draft.trace limit t = .error f →
        Draft.evaluate limit t = .error f ∨
          ∃ symbol, t.HasUnknown symbol ∧
            Draft.evaluate limit t = .error (.unknownOperator symbol) := by
  refine ⟨?_, fun s hs => ⟨evaluate_of_trace hs, rfl⟩, ?_, fun f => evaluate_of_trace_error⟩
  · constructor
    · rintro ⟨s, hs⟩
      exact ⟨s.value, evaluate_of_trace hs⟩
    · rintro ⟨v, hv⟩
      obtain ⟨s, hs, -⟩ := evaluate_eq_ok_iff.1 hv
      exact ⟨s, hs⟩
  · intro hknown f
    exact (evaluate_eq_error_iff hknown).symm

/-- An interval is divided by zero while a foreign text waits in the other subtree: both walks stop
    at the division. -/
theorem two_walks_agree_mixed :
    let t : Draft :=
      .node "U"
        (.node "/" (.leaf (.operand (.interval .empty))) (.leaf (.operand (.number (.zero true)))))
        (.node "+" (.leaf (.operand (.number .nan))) (.leaf (.foreign "x")))
    t.KnowsOperators ∧
      Draft.trace maxDepth t = .error (.divisionByZero (.interval .empty) (.number (.zero true))) ∧
      Draft.evaluate maxDepth t =
        .error (.divisionByZero (.interval .empty) (.number (.zero true))) := by
  intro t
  have hknown : t.KnowsOperators := by decide +kernel
  have htrace : Draft.trace maxDepth t =
      .error (.divisionByZero (.interval .empty) (.number (.zero true))) := rfl
  exact ⟨hknown, htrace, ((two_walks_agree maxDepth t).2.2.1 hknown _).1 htrace⟩

/-- An unknown symbol above a foreign text: each walk meets another obstacle first. -/
example :
    Draft.evaluate 2 (.node "?" (.leaf (.foreign "x")) (.leaf (.foreign "y"))) =
        .error (.unknownOperator "?") ∧
      Draft.trace 2 (.node "?" (.leaf (.foreign "x")) (.leaf (.foreign "y"))) =
        .error .foreignNode :=
  ⟨rfl, rfl⟩

end Draft

end ReversePolish
