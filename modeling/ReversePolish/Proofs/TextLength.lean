import Mathlib.Data.List.Forall2
import Mathlib.Tactic.Ring
import ReversePolish.Proofs.Counts
import ReversePolish.Proofs.Edges
import ReversePolish.Proofs.Responses

set_option autoImplicit false

/-! # The length of a text bounds the height of its tree

Between two tokens of a text stands at least one blank, an operator takes one character, and a
literal at least one over the numbers and three over the intervals. As each further operator comes
with one literal, it takes at least four or six characters, and a tree is no higher than its
operators allow. A text with the shortest literals and single blanks, whose operators each follow
their right operand, meets the bound at every height. So the limit on the length of an order bounds
the levels of every walk that the order leads to. -/

namespace ReversePolish

variable {d : Domain}

/-! ## Tokens and the blanks between them -/

/-- The length of some tokens with one blank behind each. -/
def spacedLength (ts : List (List Char)) : Nat :=
  (ts.map fun t => t.length + 1).sum

theorem spacedLength_cons (t : List Char) (ts : List (List Char)) :
    spacedLength (t :: ts) = t.length + 1 + spacedLength ts := by
  rw [spacedLength, spacedLength, List.map_cons, List.sum_cons]

/-- A text has the tokens with a blank behind each but the last, and a blank in front of them is one
    character more. -/
theorem spacedLength_tokens_le (cs : List Char) :
    spacedLength (tokens cs) ≤ cs.length + 1 ∧
      ∀ b ∈ cs.head?, isBlank b = true → spacedLength (tokens cs) ≤ cs.length := by
  induction cs with
  | nil => exact ⟨Nat.zero_le _, nofun⟩
  | cons c cs ih =>
    obtain ⟨hlength, hblank⟩ := ih
    cases hc : isBlank c with
    | true =>
      rw [tokens_of_blank hc, List.length_cons]
      exact ⟨by omega, fun _ _ _ => hlength⟩
    | false =>
      refine ⟨?_, ?_⟩
      · cases cs with
        | nil =>
          rw [tokens_of_not_blank (List.cons_ne_nil _ _) (by simpa using hc)]
          exact Nat.le_refl 2
        | cons a as =>
          rw [List.length_cons]
          cases ha : isBlank a with
          | true =>
            have hrest := hblank a rfl ha
            rw [tokens_cons_cons_of_blank hc ha, spacedLength_cons, List.length_singleton]
            omega
          | false =>
            obtain ⟨t, ts, hts, hall⟩ := tokens_cons_cons hc ha as
            rw [hts, spacedLength_cons] at hlength
            rw [hall, spacedLength_cons, List.length_cons]
            omega
      · rintro b ⟨rfl⟩ hb
        rw [hc] at hb
        cases hb

/-! ## The length of tokens -/

/-- The least length of a literal. -/
def Domain.leastLength : Domain → Nat
  | arithmetic => 1
  | interval => 3

theorem leastLength_le_of_readLiteral {token : String} {position : Nat} {l : Literal}
    (h : readLiteral d token position = .ok l) : d.leastLength ≤ token.toList.length := by
  cases d with
  | arithmetic => exact List.length_pos_iff.2 (toList_ne_nil_of_readLiteral h)
  | interval =>
    obtain ⟨i, hi, -⟩ := readInterval_eq_ok_iff.1 h
    obtain ⟨s, e, hcs, hs, he⟩ := IntervalLiteral.integers_of_read hi
    have hpos : ∀ cs : List Char, Decimal.isInteger cs = true → 0 < cs.length := by
      intro cs hinteger
      cases cs with
      | nil => cases hinteger
      | cons c cs => exact Nat.succ_pos _
    have hstart := hpos s hs
    have hstop := hpos e he
    rw [hcs, List.length_append, List.length_cons, Domain.leastLength]
    omega

theorem length_symbol (op : Operator) : op.symbol.toList.length = 1 := by
  rw [Operator.symbol, String.toList_ofList, List.length_singleton]

/-- An operator and its blank take two characters, a literal and its blank one more than the least
    length. -/
theorem le_spacedLength_of_spells {ts : List String} {xs : List (Operator ⊕ Literal)}
    (h : List.Forall₂ (Denotes d) ts xs) :
    2 * (xs.filterMap Sum.getLeft?).length +
        (d.leastLength + 1) * (xs.filterMap Sum.getRight?).length ≤
      spacedLength (ts.map String.toList) := by
  induction h with
  | nil => exact Nat.le_refl 0
  | @cons t x ts xs ht _ ih =>
    rw [List.map_cons, spacedLength_cons]
    cases x with
    | inl op =>
      have hlength := length_symbol op
      rw [ht.symbol_eq] at hlength
      rw [filterMap_getLeft?_inl, filterMap_getRight?_inl, List.length_cons]
      omega
    | inr l =>
      have hlength := leastLength_le_of_readLiteral ((denotes_inr_iff 0).1 ht).2
      rw [filterMap_getLeft?_inr, filterMap_getRight?_inr, List.length_cons, Nat.mul_succ]
      omega

/-! ## The bound -/

theorem mul_height_le {text : String} {e : Expression} (h : Expression.read d text = .ok e) :
    (d.leastLength + 3) * e.root.height ≤ text.length + 3 := by
  have hspells := (spells_of_read h).2
  have htokens := le_spacedLength_of_spells hspells
  rw [Tree.length_filterMap_getLeft?_postorder, Tree.filterMap_getRight?_postorder,
    Tree.length_leaves, Tree.leafCount_eq_operatorCount_add_one] at htokens
  have htext := (spacedLength_tokens_le text.toList).1
  rw [← map_toList_tokenize, String.length_toList] at htext
  have hheight := Nat.mul_le_mul_left (d.leastLength + 3)
    e.root.height_le_operatorCount_add_one
  -- `k` operators and `k + 1` literals take `(least + 3) * (k + 1) - 3` characters
  have hsum : (d.leastLength + 3) * (e.root.operatorCount + 1) =
      2 * e.root.operatorCount + (d.leastLength + 1) * (e.root.operatorCount + 1) + 2 := by
    ring
  omega

/-! ## Texts that meet the bound -/

/-- A shortest token of an operator. -/
def Domain.leastOperator : Domain → Operator
  | arithmetic => .add
  | interval => .union

/-- A shortest literal. -/
def Domain.leastLiteral : Domain → String
  | arithmetic => "0"
  | interval => "0,0"

/-- What the shortest literal stands for. -/
def Domain.origin : Domain → Literal
  | arithmetic => .number (.zero false)
  | interval => .interval ⟨0, 0, by decide, by decide, by decide⟩

/-- The tree with that many operators, each to the left of the next. -/
def leftComb (d : Domain) : Nat → Expr
  | 0 => .leaf d.origin
  | n + 1 => .node d.leastOperator (leftComb d n) (.leaf d.origin)

/-- The shortest tokens of the tree. -/
def leftCombTokens (d : Domain) : Nat → List String
  | 0 => [d.leastLiteral]
  | n + 1 => leftCombTokens d n ++ [d.leastLiteral, d.leastOperator.symbol]

theorem leftCombTokens_ne_nil (d : Domain) (n : Nat) : leftCombTokens d n ≠ [] := by
  cases n <;> simp [leftCombTokens]

theorem height_leftComb (d : Domain) (n : Nat) : Tree.height (leftComb d n) = n + 1 := by
  induction n with
  | zero => rfl
  | succ n ih =>
    rw [leftComb, Tree.height, ih, Tree.height]
    omega

theorem denotes_leastLiteral (d : Domain) : Denotes d d.leastLiteral (.inr d.origin) := by
  rw [denotes_inr_iff 0]
  cases d <;> decide +kernel

theorem denotes_leastOperator (d : Domain) :
    Denotes d d.leastOperator.symbol (.inl d.leastOperator) := by
  cases d <;> exact .operator rfl rfl

theorem spells_leftComb (d : Domain) (n : Nat) :
    List.Forall₂ (Denotes d) (leftCombTokens d n) (Tree.postorder (leftComb d n)) := by
  induction n with
  | zero => exact .cons (denotes_leastLiteral d) .nil
  | succ n ih =>
    rw [leftCombTokens, leftComb, Tree.postorder, List.append_assoc]
    exact List.rel_append ih
      (.cons (denotes_leastLiteral d) (.cons (denotes_leastOperator d) .nil))

theorem tokenize_of_denotes {token : String} {x : Operator ⊕ Literal} (h : Denotes d token x) :
    tokenize token = [token] := by
  cases h with
  | @operator op hd hs => exact hs ▸ tokenize_symbol op
  | literal hop hl => exact tokenize_of_readLiteral (hl 0)

/-- Joined by single blanks, the tokens are as long as they have to be. -/
theorem length_intercalate_leftCombTokens (d : Domain) (n : Nat) :
    (" ".intercalate (leftCombTokens d n)).length + 3 = (d.leastLength + 3) * (n + 1) := by
  have hliteral : d.leastLiteral.length = d.leastLength := by cases d <;> rfl
  have hoperator : d.leastOperator.symbol.length = 1 := by cases d <;> rfl
  have hblank : " ".length = 1 := rfl
  induction n with
  | zero =>
    rw [leftCombTokens, String.intercalate_singleton, hliteral]
    omega
  | succ n ih =>
    rw [leftCombTokens, String.intercalate_append_of_ne_nil (leftCombTokens_ne_nil d n)
      (List.cons_ne_nil _ _), String.intercalate_cons_of_ne_nil (List.cons_ne_nil _ _),
      String.intercalate_singleton, String.length_append, String.length_append,
      String.length_append, String.length_append, hliteral, hoperator, hblank, Nat.mul_succ]
    omega

theorem read_leftComb (d : Domain) (n : Nat) :
    ∃ e, Expression.read d (" ".intercalate (leftCombTokens d n)) = .ok e ∧
      e.root = leftComb d n := by
  have hspells := spells_leftComb d n
  have htokens : tokenize (" ".intercalate (leftCombTokens d n)) = leftCombTokens d n := by
    refine tokenize_intercalate fun t ht => ?_
    obtain ⟨i, hi, rfl⟩ := List.getElem_of_mem ht
    exact tokenize_of_denotes (hspells.get hi (by rwa [← hspells.length_eq]))
  refine ⟨_, read_eq_ok_iff.2 ⟨leftComb d n, ?_, rfl⟩, rfl⟩
  rw [htokens, readTree_eq_ok_iff]
  exact hspells

/-! ## Walks -/

/-- The walks over the tree that an order leads to go down so many levels at most: with this limit
    they come to what they come to without any. -/
structure Expr.WalkedWithin (levels : Nat) (e : Expr) : Prop where
  trace_eq : Draft.trace levels (draft e) = trace e
  render_eq : Draft.render levels (draft e) = .ok (labels e).rendering
  stats_eq : e.stats? levels = some ⟨e.height, e.leafCount, e.operatorCount⟩

theorem Expr.walkedWithin_iff {levels : Nat} {e : Expr} :
    WalkedWithin levels e ↔ e.height ≤ levels := by
  constructor
  · intro h
    exact (Tree.stats?_eq_some_iff.1 h.stats_eq).1
  · intro h
    refine ⟨Draft.trace_draft h, ?_, Tree.stats?_eq_some_iff.2 ⟨h, rfl⟩⟩
    rw [Draft.render, Draft.labels_draft h]
    rfl

namespace Service

theorem height_le_of_fits {s : Settings} {o : Order} {e : Expression} (hfits : o.Fits s)
    (hread : Expression.read (o.domainUnder s) o.text = .ok e) :
    (e.root.height : Int) ≤ (s.maxExpressionLength + 3) / 4 := by
  have hheight := mul_height_le hread
  have hlength : (o.text.length : Int) ≤ s.maxExpressionLength := hfits
  have hleast : 1 ≤ (o.domainUnder s).leastLength := by
    cases o.domainUnder s <;> decide
  have hfour : 4 * e.root.height ≤ ((o.domainUnder s).leastLength + 3) * e.root.height :=
    Nat.mul_le_mul_right _ (by omega)
  omega

/-- The kind of the refusal of a tree that is too high. -/
def depthKind : String := "expression_too_deep"

/-- Where the walks can follow every tree that the limit on the length lets through, no order is
    refused for its height. -/
theorem kinds_ne_of_answered {s : Settings} {o : Order} {p q : Response} (h : o.Answered s p q)
    (hlimit : (s.maxExpressionLength + 3) / 4 ≤ maxDepth) :
    p.text? "kind" ≠ some depthKind ∧ q.text? "kind" ≠ some depthKind := by
  cases h with
  | @syntaxError f =>
    have hkind : (syntaxResponse f).text? "kind" = some f.kind.name := rfl
    rw [hkind]
    cases f.kind <;> decide
  | zeroDivisorInDepth fits read_eq lt_height | tooDeep fits read_eq lt_height =>
    have hheight := height_le_of_fits fits read_eq
    omega
  | zeroDivisor =>
    refine ⟨?_, nofun⟩
    have hkind : ∀ a b, (divisionResponse a b).text? "kind" = some divisionByZeroKind :=
      fun _ _ => rfl
    rw [hkind]
    decide
  | broken => decide
  | tooLong | value => exact ⟨nofun, nofun⟩

end Service

/-- A text that is accepted has at least four characters for each level of its tree but for three,
    or six over the intervals, and no better bound holds at any height. So a limit on the length of
    the texts limits the levels of the walks, and where these can follow so many, no order is
    refused for the height of its tree. -/
theorem height_bounded_by_length :
    (∀ text e, Expression.read .arithmetic text = .ok e →
      4 * e.root.height ≤ text.length + 3) ∧
    (∀ text e, Expression.read .interval text = .ok e →
      6 * e.root.height ≤ text.length + 3) ∧
    (∀ h, 1 ≤ h →
      (∃ text e, Expression.read .arithmetic text = .ok e ∧ e.root.height = h ∧
        4 * h = text.length + 3) ∧
      ∃ text e, Expression.read .interval text = .ok e ∧ e.root.height = h ∧
        6 * h = text.length + 3) ∧
    (∀ (s : Settings) (o : Service.Order) e, o.Fits s →
      Expression.read (o.domainUnder s) o.text = .ok e →
      (e.root.height : Int) ≤ (s.maxExpressionLength + 3) / 4 ∧
        ∀ levels : Nat, (s.maxExpressionLength + 3) / 4 ≤ levels →
          Expr.WalkedWithin levels e.root) ∧
    ∀ (s : Settings) (body : Service.Body) o, Service.Order.ofBody body = .ok o →
      (s.maxExpressionLength + 3) / 4 ≤ maxDepth →
      (Service.post s .evaluate body).text? "kind" ≠ some Service.depthKind ∧
        (Service.post s .render body).text? "kind" ≠ some Service.depthKind := by
  refine ⟨fun text e h => mul_height_le h, fun text e h => mul_height_le h, fun h hpos => ?_,
    fun s o e hfits hread => ?_, fun s body o hbody hlimit => ?_⟩
  · obtain ⟨n, rfl⟩ := Nat.exists_eq_add_one.2 hpos
    have hmeets : ∀ d : Domain, ∃ text e, Expression.read d text = .ok e ∧
        e.root.height = n + 1 ∧ (d.leastLength + 3) * (n + 1) = text.length + 3 := by
      intro d
      obtain ⟨e, hread, hroot⟩ := read_leftComb d n
      refine ⟨_, e, hread, ?_, (length_intercalate_leftCombTokens d n).symm⟩
      rw [hroot, height_leftComb]
    exact ⟨hmeets .arithmetic, hmeets .interval⟩
  · have hheight := Service.height_le_of_fits hfits hread
    refine ⟨hheight, fun levels hlevels => Expr.walkedWithin_iff.2 ?_⟩
    have hroot : Tree.height e.root ≤ levels := by omega
    exact hroot
  · exact Service.kinds_ne_of_answered ((Service.answered_iff hbody).2 ⟨rfl, rfl⟩) hlimit

/-- Texts that meet the bounds at the heights three and two, and an order as long as the limit. -/
theorem height_bounded_by_length_of_nine :
    let text := "0 0 + 0 +"
    let s : Settings := { Settings.default with maxExpressionLength := 9 }
    let body : Service.Body := .json (.object [("text", .string text)])
    text.length = 9 ∧
      (∃ e, Expression.read .arithmetic text = .ok e ∧ e.root.height = 3 ∧
        4 * e.root.height ≤ text.length + 3 ∧ Expr.WalkedWithin 3 e.root) ∧
      (∃ e, Expression.read .interval "0,0 0,0 U" = .ok e ∧ e.root.height = 2 ∧
        6 * e.root.height ≤ "0,0 0,0 U".length + 3) ∧
      (∃ text e, Expression.read .arithmetic text = .ok e ∧ e.root.height = 1000 ∧
        4 * 1000 = text.length + 3) ∧
      (Service.post s .evaluate body).text? "kind" ≠ some Service.depthKind := by
  intro text s body
  have hread : Expression.read .arithmetic text =
      .ok ⟨.arithmetic,
        .node .add
          (.node .add (.leaf (.number (.zero false))) (.leaf (.number (.zero false))))
          (.leaf (.number (.zero false))),
        text⟩ := by decide +kernel
  have hinterval : Expression.read .interval "0,0 0,0 U" =
      .ok ⟨.interval,
        .node .union (.leaf (.interval ⟨0, 0, by decide, by decide, by decide⟩))
          (.leaf (.interval ⟨0, 0, by decide, by decide, by decide⟩)),
        "0,0 0,0 U"⟩ := by decide +kernel
  have hbody : Service.Order.ofBody body = .ok ⟨text, none⟩ := by decide +kernel
  obtain ⟨harithmetic, hintervals, hmeets, hwalks, hposts⟩ := height_bounded_by_length
  refine ⟨by decide +kernel, ⟨_, hread, rfl, harithmetic _ _ hread, ?_⟩,
    ⟨_, hinterval, rfl, hintervals _ _ hinterval⟩, (hmeets 1000 (by decide)).1,
    (hposts s body _ hbody (by decide)).1⟩
  exact (hwalks s ⟨text, none⟩ _ (by decide +kernel) hread).2 3 (by decide)

end ReversePolish
