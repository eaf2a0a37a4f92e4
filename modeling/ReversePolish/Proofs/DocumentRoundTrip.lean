import ReversePolish.Proofs.Documents
import ReversePolish.Proofs.Places
import ReversePolish.Proofs.Rendered

set_option autoImplicit false

/-! # Documents are read back

An expression that is written as a document describes this one expression, whether its nodes state
their kinds or not, because the fields of the kinds do not overlap; with a wrong kind at one node,
however deep, the document describes nothing. Since reading is sound and complete for what a
document describes, what is written is read back and a wrong kind is refused, and no order of trying
the kinds matters to it. -/

namespace ReversePolish

/-! ## Writing with any statement of kinds -/

/-- The name of the kind of node that a literal is. -/
def Literal.kind : Literal → String
  | .number _ => "number"
  | .interval _ => "interval"

/-- The name of the kind of node at the root. -/
def Expr.kind : Expr → String
  | .leaf l => l.kind
  | .node _ _ _ => "operator"

/-- What a literal has under `value`. -/
def Literal.toJson : Literal → Json
  | .number x => .float (.finite x)
  | .interval i => i.toJson

/-- What the nodes of a tree state about their kind: the value under `node_type`, if there is one,
    for the place of a node and the name of its kind. -/
abbrev Statement := List Side → String → Option Json

namespace Statement

/-- Every node states its kind. -/
def full : Statement := fun _ kind => some (.string kind)

/-- Every node states its kind but for those at some places, which state none. -/
def without (omitted : List Side → Bool) : Statement := fun place kind =>
  if omitted place then none else some (.string kind)

/-- Every node states its kind but for the one at a place, which states something else. -/
def changed (place : List Side) (tag : Json) : Statement := fun place' kind =>
  if place' = place then some tag else some (.string kind)

/-- The statement about a subtree. -/
def below (s : Statement) (side : Side) : Statement := fun place => s (side :: place)

end Statement

/-- The members of a node: what it states, and its fields. -/
def nodeMembers (tag : Option Json) (fields : List (String × Json)) : List (String × Json) :=
  tag.toList.map (fun v => ("node_type", v)) ++ fields

/-- A tree as a node, with any statement about kinds. -/
def Expr.toJsonStating : Statement → Expr → Json
  | s, .leaf l => .object (nodeMembers (s [] l.kind) [("value", l.toJson)])
  | s, .node op l r =>
    .object (nodeMembers (s [] "operator")
      [("op", .string op.symbol), ("left", Expr.toJsonStating (s.below .left) l),
        ("right", Expr.toJsonStating (s.below .right) r)])

/-- An expression as a document, with any statement about kinds. -/
def Expression.toJsonStating (s : Statement) (e : Expression) : Json :=
  .object
    [("domain", .string e.domain.name), ("root", Expr.toJsonStating s e.root),
      ("source_text", .string e.source)]

theorem Expr.toJsonStating_full (e : Expr) : Expr.toJsonStating .full e = Expr.toJson e := by
  induction e with
  | leaf l => cases l <;> rfl
  | node op l r ihl ihr =>
    rw [Expr.toJsonStating, Expr.toJson, ← ihl, ← ihr]
    rfl

theorem Expression.toJsonStating_full (e : Expression) : e.toJsonStating .full = e.toJson := by
  rw [Expression.toJsonStating, Expression.toJson, Expr.toJsonStating_full]

/-! ## Looking members up -/

namespace Json

theorem lookUp?_append (name : String) (ms ns : List (String × Json)) :
    lookUp? name (ms ++ ns) = (lookUp? name ns).or (lookUp? name ms) := by
  simp only [lookUp?, List.reverse_append, List.find?_append, Option.map_or]

theorem lookUp?_nodeMembers_of_ne {name : String} (h : name ≠ "node_type") (tag : Option Json)
    (fields : List (String × Json)) :
    lookUp? name (nodeMembers tag fields) = lookUp? name fields := by
  rw [nodeMembers, lookUp?_append]
  cases tag with
  | none => simp [lookUp?]
  | some v => simp [lookUp?, Ne.symm h]

theorem lookUp?_nodeMembers_self {fields : List (String × Json)}
    (h : lookUp? "node_type" fields = none) (tag : Option Json) :
    lookUp? "node_type" (nodeMembers tag fields) = tag := by
  rw [nodeMembers, lookUp?_append, h]
  cases tag <;> rfl

end Json

theorem mayBe_nodeMembers_iff {kind : String} {tag : Option Json} {fields : List (String × Json)}
    (h : Json.lookUp? "node_type" fields = none) :
    MayBe kind (nodeMembers tag fields) ↔ tag = none ∨ tag = some (.string kind) := by
  rw [MayBe, Json.lookUp?_nodeMembers_self h]

/-! ## What is written describes one tree -/

/-- No node of the tree states a kind that is not its own. -/
def Statement.Fits (s : Statement) (e : Expr) : Prop :=
  ∀ place u, Tree.subtree? e place = some u →
    s place (Expr.kind u) = none ∨ s place (Expr.kind u) = some (.string (Expr.kind u))

theorem Statement.fits_leaf {s : Statement} {l : Literal} :
    s.Fits (.leaf l) ↔ s [] l.kind = none ∨ s [] l.kind = some (.string l.kind) := by
  constructor
  · intro h
    exact h [] _ rfl
  · rintro h (_ | ⟨_ | _, place⟩) u hu
    · cases hu
      exact h
    · cases hu
    · cases hu

theorem Statement.fits_node {s : Statement} {op : Operator} {l r : Expr} :
    s.Fits (.node op l r) ↔
      (s [] "operator" = none ∨ s [] "operator" = some (.string "operator")) ∧
        (s.below .left).Fits l ∧ (s.below .right).Fits r := by
  constructor
  · intro h
    refine ⟨h [] _ rfl, fun place u hu => ?_, fun place u hu => ?_⟩
    · exact h (.left :: place) u hu
    · exact h (.right :: place) u hu
  · rintro ⟨hroot, hl, hr⟩ (_ | ⟨_ | _, place⟩) u hu
    · cases hu
      exact hroot
    · exact hl place u hu
    · exact hr place u hu

theorem describesTree_leaf_iff {tag : Option Json} {l : Literal} {e : Expr} :
    Json.DescribesTree (.object (nodeMembers tag [("value", l.toJson)])) e ↔
      e = .leaf l ∧ (tag = none ∨ tag = some (.string l.kind)) := by
  have htag : Json.lookUp? "node_type" [("value", l.toJson)] = none := rfl
  have hvalue : Json.lookUp? "value" (nodeMembers tag [("value", l.toJson)]) = some l.toJson :=
    Json.lookUp?_nodeMembers_of_ne (by decide) tag _
  have hop : Json.lookUp? "op" (nodeMembers tag [("value", l.toJson)]) = none :=
    Json.lookUp?_nodeMembers_of_ne (by decide) tag _
  constructor
  · intro h
    cases h with
    | number hkind hv hvx =>
      rw [hvalue] at hv
      cases hv
      cases l with
      | number x =>
        cases hvx
        exact ⟨rfl, (mayBe_nodeMembers_iff htag).1 hkind⟩
      | interval i => cases hvx
    | interval hkind hv hlow hhigh hlower hupper =>
      rw [hvalue] at hv
      cases l with
      | number x => cases hv
      | interval i =>
        cases hv
        cases hlow
        cases hhigh
        rw [Interval.eq_of_bounds (Except.ok.inj hlower) (Except.ok.inj hupper)]
        exact ⟨rfl, (mayBe_nodeMembers_iff htag).1 hkind⟩
    | operator hkind hsymbol =>
      rw [hop] at hsymbol
      cases hsymbol
  · rintro ⟨rfl, h⟩
    have hkind := (mayBe_nodeMembers_iff htag).2 h
    cases l with
    | number x => exact .number hkind hvalue rfl
    | interval i => exact .interval hkind hvalue rfl rfl rfl rfl

theorem describesTree_node_iff {tag : Option Json} {op : Operator} {left right : Json} {e : Expr} :
    Json.DescribesTree
        (.object (nodeMembers tag [("op", .string op.symbol), ("left", left), ("right", right)])) e ↔
      (tag = none ∨ tag = some (.string "operator")) ∧
        ∃ l r, e = .node op l r ∧ left.DescribesTree l ∧ right.DescribesTree r := by
  have htag : Json.lookUp? "node_type"
      [("op", .string op.symbol), ("left", left), ("right", right)] = none := rfl
  have hfield : ∀ name, name ≠ "node_type" →
      Json.lookUp? name
          (nodeMembers tag [("op", .string op.symbol), ("left", left), ("right", right)]) =
        Json.lookUp? name [("op", .string op.symbol), ("left", left), ("right", right)] :=
    fun name hne => Json.lookUp?_nodeMembers_of_ne hne tag _
  have hvalue := hfield "value" (by decide)
  have hop := hfield "op" (by decide)
  have hleft := hfield "left" (by decide)
  have hright := hfield "right" (by decide)
  constructor
  · intro h
    cases h with
    | number hkind hv =>
      rw [hvalue] at hv
      cases hv
    | interval hkind hv =>
      rw [hvalue] at hv
      cases hv
    | @operator _ op' _ _ l r hkind hsymbol hl hr hdl hdr =>
      rw [hop] at hsymbol
      rw [hleft] at hl
      rw [hright] at hr
      cases hl
      cases hr
      have hsame : op = op' := Operator.symbol_injective (Json.string.inj (Option.some.inj hsymbol))
      rw [hsame]
      exact ⟨(mayBe_nodeMembers_iff htag).1 hkind, l, r, rfl, hdl, hdr⟩
  · rintro ⟨h, l, r, rfl, hl, hr⟩
    exact .operator ((mayBe_nodeMembers_iff htag).2 h) hop hleft hright hl hr

/-- A written tree describes itself alone, and nothing at all if a node states a wrong kind. -/
theorem Expr.describesTree_toJsonStating_iff {s : Statement} {e e' : Expr} :
    (Expr.toJsonStating s e).DescribesTree e' ↔ e' = e ∧ s.Fits e := by
  induction e generalizing s e' with
  | leaf l => rw [Expr.toJsonStating, describesTree_leaf_iff, Statement.fits_leaf]
  | node op l r ihl ihr =>
    rw [Expr.toJsonStating, describesTree_node_iff, Statement.fits_node]
    simp only [ihl, ihr]
    constructor
    · rintro ⟨htag, l', r', rfl, ⟨rfl, hl⟩, rfl, hr⟩
      exact ⟨rfl, htag, hl, hr⟩
    · rintro ⟨rfl, htag, hl, hr⟩
      exact ⟨htag, l, r, rfl, ⟨rfl, hl⟩, rfl, hr⟩

theorem Expression.describes_toJsonStating_iff {s : Statement} {e e' : Expression} :
    (e.toJsonStating s).Describes e' ↔ e' = e ∧ s.Fits e.root := by
  constructor
  · intro h
    cases h with
    | @object members root _ hdomain hroot hdescribes hsource =>
      cases hroot
      obtain ⟨hroot, hfits⟩ := Expr.describesTree_toJsonStating_iff.1 hdescribes
      have hname : e.domain.name = e'.domain.name :=
        Json.string.inj (Option.some.inj hdomain)
      have hdomain' : e.domain = e'.domain := by
        have hd := Domain.ofName?_name e.domain
        rw [hname, Domain.ofName?_name] at hd
        exact (Option.some.inj hd).symm
      refine ⟨?_, hfits⟩
      obtain ⟨d, r, source⟩ := e
      obtain ⟨d', r', source'⟩ := e'
      cases hdomain'
      cases hroot
      cases hsource
      rfl
  · rintro ⟨rfl, hfits⟩
    exact .object rfl rfl (Expr.describesTree_toJsonStating_iff.2 ⟨rfl, hfits⟩) rfl

/-! ## What is written is read -/

section Reading

variable {s : Statement} {e : Expression}

theorem Expression.ofJson?_toJsonStating (hfits : s.Fits e.root)
    (hheight : e.root.height ≤ maxDocumentNesting + 1) :
    Expression.ofJson? (e.toJsonStating s) = some e := by
  have hdescribes := Expression.describes_toJsonStating_iff.2 ⟨(rfl : e = e), hfits⟩
  obtain ⟨e', he'⟩ := Json.exists_ofJson?_of_describes hdescribes hheight
  obtain ⟨rfl, -⟩ := Expression.describes_toJsonStating_iff.1 (Json.describes_of_ofJson? he')
  exact he'

theorem Expression.ofJson?_toJsonStating_eq_none (h : ¬ s.Fits e.root) :
    Expression.ofJson? (e.toJsonStating s) = none := by
  rw [Option.eq_none_iff_forall_ne_some]
  intro e' he'
  exact h (Expression.describes_toJsonStating_iff.1 (Json.describes_of_ofJson? he')).2

theorem Statement.fits_full (e : Expr) : Statement.full.Fits e :=
  fun _ _ _ => .inr rfl

theorem Statement.fits_without (omitted : List Side → Bool) (e : Expr) :
    (Statement.without omitted).Fits e := by
  intro place u hu
  unfold Statement.without
  split
  · exact .inl rfl
  · exact .inr rfl

theorem Statement.not_fits_changed {e u : Expr} {place : List Side} {tag : Json}
    (hplace : Tree.subtree? e place = some u) (htag : tag ≠ .string (Expr.kind u)) :
    ¬ (Statement.changed place tag).Fits e := by
  intro h
  have htold := h place u hplace
  rw [Statement.changed, if_pos rfl] at htold
  rcases htold with hnone | hsome
  · cases hnone
  · exact htag (Option.some.inj hsome)

end Reading

/-! ## What is read is checked -/

/-- A node of a draft with which the checks find nothing wrong. -/
inductive PassesChecks : String ⊕ Part → Prop where
  | operator {symbol : String} (known : symbol ∈ Operator.all.map Operator.symbol) :
      PassesChecks (.inl symbol)
  | number {x : Binary64} (finite : x.isFinite = true) :
      PassesChecks (.inr (.operand (.number x)))
  | interval {i : Interval} (in_range : minBound ≤ i.lower ∧ i.upper ≤ maxBound)
      (in_order : i.lower ≤ i.upper) : PassesChecks (.inr (.operand (.interval i)))

theorem Expr.passesChecks_draft {e : Expr} :
    ∀ x ∈ Tree.postorder (Expr.draft e), PassesChecks x := by
  intro x hx
  rw [Expr.draft, Tree.postorder_relabel] at hx
  obtain ⟨y, -, rfl⟩ := List.mem_map.1 hx
  cases y with
  | inl op =>
    refine .operator (List.mem_map.2 ⟨op, ?_, rfl⟩)
    cases op <;> decide
  | inr l =>
    cases l with
    | number x => exact .number rfl
    | interval i => exact .interval ⟨i.minBound_le, i.le_maxBound⟩ i.lower_le_upper

/-- An expression is read back from its document, also if some of the nodes do not state their kind,
    and no reading of this document gives another. Whatever is read passes the checks at every node
    and is what the document describes. If one node states a kind that is not its own, the document
    describes nothing and is refused. -/
theorem documents_are_read_back :
    (∀ (e : Expression) omitted,
      (∀ e', (e.toJsonStating (.without omitted)).Describes e' ↔ e' = e) ∧
        (e.root.height ≤ maxDocumentNesting + 1 →
          Expression.ofJson? e.toJson = some e ∧
            Expression.ofJson? (e.toJsonStating (.without omitted)) = some e)) ∧
      (∀ j e, Expression.ofJson? j = some e →
        j.Describes e ∧ ∀ x ∈ Tree.postorder (Expr.draft e.root), PassesChecks x) ∧
      ∀ (e : Expression) place u tag, Tree.subtree? e.root place = some u →
        tag ≠ .string (Expr.kind u) →
          (∀ e', ¬ (e.toJsonStating (.changed place tag)).Describes e') ∧
            Expression.ofJson? (e.toJsonStating (.changed place tag)) = none := by
  refine ⟨fun e omitted => ⟨fun e' => ?_, fun hheight => ⟨?_, ?_⟩⟩, fun j e he => ?_,
    fun e place u tag hplace htag => ?_⟩
  · rw [Expression.describes_toJsonStating_iff]
    exact and_iff_left (Statement.fits_without omitted e.root)
  · rw [← Expression.toJsonStating_full]
    exact Expression.ofJson?_toJsonStating (Statement.fits_full e.root) hheight
  · exact Expression.ofJson?_toJsonStating (Statement.fits_without omitted e.root) hheight
  · exact ⟨Json.describes_of_ofJson? he, Expr.passesChecks_draft⟩
  · have hfits := Statement.not_fits_changed hplace htag
    refine ⟨fun e' he' => ?_, Expression.ofJson?_toJsonStating_eq_none hfits⟩
    exact hfits (Expression.describes_toJsonStating_iff.1 he').2

/-- A tree that mixes the domains is read back without any kinds, negative zero and all; with the
    number stated to be an interval it is refused. -/
theorem documents_are_read_back_mixed :
    let e : Expression :=
      ⟨.interval, .node .union (.leaf (.interval .empty)) (.leaf (.number (.zero true))), " U "⟩
    e.root.height ≤ maxDocumentNesting + 1 ∧
      Expression.ofJson? (e.toJsonStating (.without fun _ => true)) = some e ∧
      Tree.subtree? e.root [.right] = some (.leaf (.number (.zero true))) ∧
      Json.string "interval" ≠ .string (Expr.kind (.leaf (.number (.zero true)))) ∧
      Expression.ofJson? (e.toJsonStating (.changed [.right] (.string "interval"))) = none := by
  intro e
  have hheight : e.root.height ≤ maxDocumentNesting + 1 := by decide
  have hplace : Tree.subtree? e.root [.right] = some (.leaf (.number (.zero true))) := rfl
  have htag : Json.string "interval" ≠ .string (Expr.kind (.leaf (.number (.zero true)))) := by
    intro h
    exact absurd (Json.string.inj h) (by decide)
  obtain ⟨hback, -, hrefused⟩ := documents_are_read_back
  exact ⟨hheight, ((hback e _).2 hheight).2, hplace, htag, (hrefused e _ _ _ hplace htag).2⟩

end ReversePolish
