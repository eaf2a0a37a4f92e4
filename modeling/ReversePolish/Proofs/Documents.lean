import ReversePolish.Document
import ReversePolish.Proofs.Label

set_option autoImplicit false

/-! # What a document says

A node of a document is read by trying the kinds of node one after the other, for it need not state
its own. What it says is told here without an order of trying: as a relation with one case for each
kind, under which an object may well describe several trees. Reading is sound and complete for this
relation: it gives a tree that the document describes, and it gives one whenever there is one that
is not nested too deeply. -/

namespace ReversePolish

/-! ## What a document says -/

/-- The object states that kind of node, or none. -/
def MayBe (kind : String) (members : List (String × Json)) : Prop :=
  Json.lookUp? "node_type" members = none ∨
    Json.lookUp? "node_type" members = some (.string kind)

/-- The value describes the tree: it is an object with the fields of a node, and so are the values
    in the places of subtrees. -/
inductive Json.DescribesTree : Json → Expr → Prop where
  | number {members : List (String × Json)} {v : Json} {x : Binary64.Finite}
      (kind : MayBe "number" members) (value_at : Json.lookUp? "value" members = some v)
      (value_eq : numberOfJson? v = some (.finite x)) :
      DescribesTree (.object members) (.leaf (.number x))
  | interval {members bounds : List (String × Json)} {lower upper : Json} {i : Interval}
      (kind : MayBe "interval" members)
      (value_at : Json.lookUp? "value" members = some (.object bounds))
      (start_at : Json.lookUp? "start" bounds = some lower)
      (end_at : Json.lookUp? "end" bounds = some upper)
      (lower_eq : integerOfJson lower = .ok i.lower)
      (upper_eq : integerOfJson upper = .ok i.upper) :
      DescribesTree (.object members) (.leaf (.interval i))
  | operator {members : List (String × Json)} {op : Operator} {left right : Json} {l r : Expr}
      (kind : MayBe "operator" members)
      (op_at : Json.lookUp? "op" members = some (.string op.symbol))
      (left_at : Json.lookUp? "left" members = some left)
      (right_at : Json.lookUp? "right" members = some right)
      (left_describes : DescribesTree left l) (right_describes : DescribesTree right r) :
      DescribesTree (.object members) (.node op l r)

/-- The value describes the expression: it is an object with its domain, its tree and its source,
    which may be left out when it is empty. -/
inductive Json.Describes : Json → Expression → Prop where
  | object {members : List (String × Json)} {root : Json} {e : Expression}
      (domain_at : Json.lookUp? "domain" members = some (.string e.domain.name))
      (root_at : Json.lookUp? "root" members = some root)
      (root_describes : root.DescribesTree e.root)
      (source_eq : sourceOfField? (Json.lookUp? "source_text" members) = some e.source) :
      Describes (.object members) e

/-! ## Reading the fields of a node -/

theorem allowsKind_iff {kind : String} {members : List (String × Json)} :
    allowsKind kind members = true ↔ MayBe kind members := by
  unfold allowsKind MayBe
  split
  · next h => simp [h]
  · next s h => simp [h]
  · next v hv h =>
    -- what is stated is not even a text
    simp only [h, Bool.false_eq_true, reduceCtorEq, Option.some.injEq, false_or, false_iff]
    rintro rfl
    exact hv kind rfl

theorem boundOfField_eq_ok_iff {name : String} {field : Option Json} {a : Int} :
    boundOfField name field = .ok a ↔
      ∃ v, field = some v ∧ integerOfJson v = .ok a ∧ minBound ≤ a ∧ a ≤ maxBound := by
  unfold boundOfField
  split
  · simp
  · next v =>
    split
    · next f hf => simp [hf]
    · next b hb =>
      split
      · next hlow =>
        simp only [reduceCtorEq, Option.some.injEq, exists_eq_left', hb, Except.ok.injEq, false_iff]
        omega
      · split
        · next hhigh =>
          simp only [reduceCtorEq, Option.some.injEq, exists_eq_left', hb, Except.ok.injEq,
            false_iff]
          omega
        · simp only [Option.some.injEq, exists_eq_left', hb, Except.ok.injEq]
          omega

theorem Interval.ofFields_eq_ok_iff {lower upper : Option Json} {i : Interval} :
    Interval.ofFields lower upper = .ok i ↔
      ∃ v w, lower = some v ∧ upper = some w ∧ integerOfJson v = .ok i.lower ∧
        integerOfJson w = .ok i.upper := by
  constructor
  · intro h
    unfold Interval.ofFields at h
    split at h
    · next a b ha hb =>
      split at h
      · next j hj =>
        cases h
        obtain ⟨v, hv, hva, -⟩ := boundOfField_eq_ok_iff.1 ha
        obtain ⟨w, hw, hwb, -⟩ := boundOfField_eq_ok_iff.1 hb
        obtain ⟨rfl, rfl⟩ := Interval.ofBounds?_eq_some_iff.1 hj
        exact ⟨v, w, hv, hw, hva, hwb⟩
      · cases h
    all_goals cases h
  · rintro ⟨v, w, rfl, rfl, hv, hw⟩
    have hlow := i.minBound_le
    have hmid := i.lower_le_upper
    have hhigh := i.le_maxBound
    have hstart : boundOfField "start" (some v) = .ok i.lower :=
      boundOfField_eq_ok_iff.2 ⟨v, rfl, hv, by omega, by omega⟩
    have hend : boundOfField "end" (some w) = .ok i.upper :=
      boundOfField_eq_ok_iff.2 ⟨w, rfl, hw, by omega, by omega⟩
    have hbounds : Interval.ofBounds? i.lower i.upper = some i :=
      Interval.ofBounds?_eq_some_iff.2 ⟨rfl, rfl⟩
    rw [Interval.ofFields, hstart, hend]
    simp only [hbounds]

theorem numberNode?_eq_some_iff {members : List (String × Json)} {l : Literal} :
    numberNode? members = some l ↔
      ∃ v x, MayBe "number" members ∧ Json.lookUp? "value" members = some v ∧
        numberOfJson? v = some (.finite x) ∧ l = .number x := by
  unfold numberNode?
  rw [← allowsKind_iff]
  split
  · next hkind =>
    split
    · next x hx =>
      obtain ⟨v, hv, hvx⟩ := Option.bind_eq_some_iff.1 hx
      simp [hkind, hv, hvx, eq_comm]
    · next hnot =>
      simp only [reduceCtorEq, false_iff]
      rintro ⟨v, x, -, hv, hvx, -⟩
      exact hnot x (by rw [hv, Option.bind_some, hvx])
  · next hkind => simp [hkind]

theorem intervalNode?_eq_some_iff {members : List (String × Json)} {l : Literal} :
    intervalNode? members = some l ↔
      ∃ bounds v w i, MayBe "interval" members ∧
        Json.lookUp? "value" members = some (.object bounds) ∧
        Json.lookUp? "start" bounds = some v ∧ Json.lookUp? "end" bounds = some w ∧
        integerOfJson v = .ok i.lower ∧ integerOfJson w = .ok i.upper ∧ l = .interval i := by
  unfold intervalNode?
  rw [← allowsKind_iff]
  split
  · next hkind =>
    split
    · next bounds hvalue =>
      split
      · next i hi =>
        obtain ⟨v, w, hv, hw, hvi, hwi⟩ := Interval.ofFields_eq_ok_iff.1 hi
        constructor
        · rintro ⟨⟩
          exact ⟨bounds, v, w, i, hkind, hvalue, hv, hw, hvi, hwi, rfl⟩
        · rintro ⟨bounds', v', w', i', -, hvalue', hv', hw', hvi', hwi', rfl⟩
          rw [hvalue] at hvalue'
          cases hvalue'
          have hi' := Interval.ofFields_eq_ok_iff.2 ⟨v', w', hv', hw', hvi', hwi'⟩
          rw [hi] at hi'
          rw [Except.ok.inj hi']
      · next f hf =>
        simp only [reduceCtorEq, false_iff]
        rintro ⟨bounds', v, w, i, -, hvalue', hv, hw, hvi, hwi, -⟩
        rw [hvalue] at hvalue'
        cases hvalue'
        rw [Interval.ofFields_eq_ok_iff.2 ⟨v, w, hv, hw, hvi, hwi⟩] at hf
        cases hf
    · next hnot =>
      simp only [reduceCtorEq, false_iff]
      rintro ⟨bounds, v, w, i, -, hvalue, -⟩
      exact hnot bounds hvalue
  · next hkind => simp [hkind]

theorem operatorOfNode?_eq_some_iff {members : List (String × Json)} {op : Operator} :
    operatorOfNode? members = some op ↔
      MayBe "operator" members ∧ Json.lookUp? "op" members = some (.string op.symbol) := by
  unfold operatorOfNode?
  rw [← allowsKind_iff]
  split
  · next hkind =>
    split
    · next s hs =>
      simp only [hkind, hs, Option.some.injEq, Json.string.injEq, true_and]
      constructor
      · intro h
        exact (Operator.symbol_of_ofSymbol? h).symm
      · rintro rfl
        exact Operator.ofSymbol?_symbol op
    · next hnot =>
      simp only [reduceCtorEq, false_iff]
      rintro ⟨-, h⟩
      exact hnot _ h
  · next hkind => simp [hkind]

/-! ## Reading a tree -/

theorem describesTree_of_leafNode? {members : List (String × Json)} {e : Expr}
    (h : leafNode? members = some e) : Json.DescribesTree (.object members) e := by
  obtain ⟨l, hl, rfl⟩ := Option.map_eq_some_iff.1 h
  rcases Option.or_eq_some_iff.1 hl with hl | ⟨-, hl⟩
  · obtain ⟨v, x, hkind, hv, hvx, rfl⟩ := numberNode?_eq_some_iff.1 hl
    exact .number hkind hv hvx
  · obtain ⟨bounds, v, w, i, hkind, hvalue, hv, hw, hvi, hwi, rfl⟩ :=
      intervalNode?_eq_some_iff.1 hl
    exact .interval hkind hvalue hv hw hvi hwi

theorem exists_leafNode?_of_literal {members : List (String × Json)} {l : Literal}
    (h : numberNode? members = some l ∨ intervalNode? members = some l) :
    ∃ e, leafNode? members = some e := by
  unfold leafNode?
  rcases h with h | h
  · exact ⟨.leaf l, by rw [h]; rfl⟩
  · rw [h]
    cases numberNode? members with
    | none => exact ⟨.leaf l, rfl⟩
    | some m => exact ⟨.leaf m, rfl⟩

/-- An object that can be a leaf is read at any depth, as the leaf or as an operator. -/
theorem exists_ofJson?_of_leafNode? {members : List (String × Json)}
    (h : ∃ e, leafNode? members = some e) (n : Nat) :
    ∃ e, Expr.ofJson? n (.object members) = some e := by
  obtain ⟨e, he⟩ := h
  cases n with
  | zero => exact ⟨e, he⟩
  | succ n =>
    rw [Expr.ofJson?, he]
    exact Option.isSome_iff_exists.1 (by simp)

/-- An operator over subtrees within the limit is read as such a node, whatever else it may be. -/
theorem Expr.ofJson?_succ_of_operator {n : Nat} {members : List (String × Json)} {op : Operator}
    {left right : Json} {l r : Expr} (hop : operatorOfNode? members = some op)
    (hleft : Json.lookUp? "left" members = some left)
    (hright : Json.lookUp? "right" members = some right)
    (hl : Expr.ofJson? n left = some l) (hr : Expr.ofJson? n right = some r) :
    Expr.ofJson? (n + 1) (.object members) = some (.node op l r) := by
  rw [Expr.ofJson?, hop, hleft, hright]
  simp [hl, hr]

/-- What is read is described. -/
theorem Json.describesTree_of_ofJson? {n : Nat} {j : Json} {e : Expr}
    (h : Expr.ofJson? n j = some e) : j.DescribesTree e := by
  induction n generalizing j e with
  | zero =>
    cases j with
    | object members => exact describesTree_of_leafNode? h
    | _ => cases h
  | succ n ih =>
    cases j with
    | object members =>
      rcases Option.or_eq_some_iff.1 h with hwhole | ⟨-, hleaf⟩
      · obtain ⟨op, hop, hwhole⟩ := Option.bind_eq_some_iff.1 hwhole
        obtain ⟨l, hl, hwhole⟩ := Option.bind_eq_some_iff.1 hwhole
        obtain ⟨r, hr, hwhole⟩ := Option.bind_eq_some_iff.1 hwhole
        cases hwhole
        obtain ⟨left, hleft, hl⟩ := Option.bind_eq_some_iff.1 hl
        obtain ⟨right, hright, hr⟩ := Option.bind_eq_some_iff.1 hr
        obtain ⟨hkind, hsymbol⟩ := operatorOfNode?_eq_some_iff.1 hop
        exact .operator hkind hsymbol hleft hright (ih hl) (ih hr)
      · exact describesTree_of_leafNode? hleaf
    | _ => cases h

/-- What is described within the limit is read, though maybe as another tree. -/
theorem Json.exists_ofJson?_of_describesTree {n : Nat} {j : Json} {e : Expr}
    (h : j.DescribesTree e) (hheight : Tree.height e ≤ n + 1) :
    ∃ e', Expr.ofJson? n j = some e' := by
  induction h generalizing n with
  | number hkind hv hvx =>
    have hnumber := numberNode?_eq_some_iff.2 ⟨_, _, hkind, hv, hvx, rfl⟩
    exact exists_ofJson?_of_leafNode? (exists_leafNode?_of_literal (.inl hnumber)) n
  | interval hkind hvalue hv hw hvi hwi =>
    have hinterval := intervalNode?_eq_some_iff.2 ⟨_, _, _, _, hkind, hvalue, hv, hw, hvi, hwi, rfl⟩
    exact exists_ofJson?_of_leafNode? (exists_leafNode?_of_literal (.inr hinterval)) n
  | @operator members op left right l r hkind hsymbol hleft hright _ _ ihl ihr =>
    rw [Tree.height] at hheight
    cases n with
    | zero =>
      have := Tree.height_pos l
      omega
    | succ n =>
      obtain ⟨l', hl'⟩ := ihl (n := n) (by omega)
      obtain ⟨r', hr'⟩ := ihr (n := n) (by omega)
      have hop := operatorOfNode?_eq_some_iff.2 ⟨hkind, hsymbol⟩
      exact ⟨_, Expr.ofJson?_succ_of_operator hop hleft hright hl' hr'⟩

/-! ## Reading an expression -/

theorem Domain.ofJson?_eq_some_iff {v : Json} {d : Domain} :
    Domain.ofJson? v = some d ↔ v = .string d.name := by
  constructor
  · intro h
    cases v with
    | string s =>
      have hfind : Domain.all.find? (·.name == s) = some d := h
      have hname := List.find?_some hfind
      rw [eq_of_beq hname]
    | _ => cases h
  · rintro rfl
    exact Domain.ofName?_name d

theorem Json.describes_of_ofJson? {j : Json} {e : Expression}
    (h : Expression.ofJson? j = some e) : j.Describes e := by
  cases j with
  | object members =>
    obtain ⟨d, hd, h⟩ := Option.bind_eq_some_iff.1 h
    obtain ⟨r, hr, h⟩ := Option.bind_eq_some_iff.1 h
    obtain ⟨source, hsource, h⟩ := Option.bind_eq_some_iff.1 h
    cases h
    obtain ⟨v, hv, hd⟩ := Option.bind_eq_some_iff.1 hd
    obtain ⟨root, hroot, hr⟩ := Option.bind_eq_some_iff.1 hr
    rw [Domain.ofJson?_eq_some_iff.1 hd] at hv
    exact .object hv hroot (Json.describesTree_of_ofJson? hr) hsource
  | _ => cases h

theorem Json.exists_ofJson?_of_describes {j : Json} {e : Expression} (h : j.Describes e)
    (hheight : e.root.height ≤ maxDocumentNesting + 1) :
    ∃ e', Expression.ofJson? j = some e' := by
  cases h with
  | @object members root _ hdomain hroot hdescribes hsource =>
    obtain ⟨r, hr⟩ := Json.exists_ofJson?_of_describesTree hdescribes hheight
    have hd := Domain.ofJson?_eq_some_iff.2 (rfl : Json.string e.domain.name = _)
    refine ⟨⟨e.domain, r, e.source⟩, ?_⟩
    rw [Expression.ofJson?, hdomain, hroot, hsource]
    simp [hd, hr]

end ReversePolish
