import Mathlib.Data.Set.Subsingleton
import ReversePolish.Proofs.Label

set_option autoImplicit false

/-! # Reading is inverse to the listing in postorder

Reading keeps a stack of trees. The invariant is that the listings in postorder of the trees on
the stack, from the lowest to the topmost, are the labels of the tokens that have been read, in
their order. It goes through every token, so a tree that is read has its tokens as its listing.
The converse is an induction on the tree: its listing, read over any stack, puts the tree on
top. -/

namespace ReversePolish

variable {d : Domain}

/-! ## One token -/

theorem readToken_of_operator {token : String} {op : Operator}
    (hop : Operator.ofSymbolIn? d token = some op) (position : Nat) (left right : Expr)
    (rest : List Expr) :
    readToken d position token (right :: left :: rest) = .ok (.node op left right :: rest) := by
  simp only [readToken, hop]

theorem readToken_of_length_lt {token : String} {op : Operator} {stack : List Expr}
    (hop : Operator.ofSymbolIn? d token = some op) (hlen : stack.length < 2) (position : Nat) :
    readToken d position token stack =
      .error (.syntaxError (.insufficientOperands token position stack.length)) := by
  match stack, hlen with
  | [], _ => simp only [readToken, hop]
  | [_], _ => simp only [readToken, hop]

theorem readToken_of_literal {token : String} (hop : Operator.ofSymbolIn? d token = none)
    (position : Nat) (stack : List Expr) :
    readToken d position token stack =
      (readLiteral d token position).map fun l => .leaf l :: stack := by
  simp only [readToken, hop]
  cases readLiteral d token position <;> rfl

/-- A token that is read is an operator over two trees or a literal. -/
theorem readToken_eq_ok_iff {position : Nat} {token : String} {stack stack' : List Expr} :
    readToken d position token stack = .ok stack' ↔
      (∃ op left right rest, Denotes d token (.inl op) ∧ stack = right :: left :: rest ∧
        stack' = .node op left right :: rest) ∨
      ∃ l, Denotes d token (.inr l) ∧ stack' = .leaf l :: stack := by
  simp only [denotes_inl_iff, denotes_inr_iff position]
  cases hop : Operator.ofSymbolIn? d token with
  | some op =>
    match stack with
    | right :: left :: rest =>
      rw [readToken_of_operator hop]
      constructor
      · intro h
        exact .inl ⟨op, left, right, rest, rfl, rfl, (Except.ok.inj h).symm⟩
      · rintro (⟨_, _, _, _, h, hs, rfl⟩ | ⟨_, ⟨h, _⟩, _⟩)
        · cases h
          cases hs
          rfl
        · cases h
    | [] | [_] =>
      rw [readToken_of_length_lt hop (by simp)]
      simp
  | none =>
    rw [readToken_of_literal hop]
    cases hl : readLiteral d token position with
    | error f => simp [Except.map]
    | ok l => simp [Except.map, eq_comm]

/-! ## The listing of a stack -/

/-- The labels of the trees on a stack: the lowest tree comes first, each in postorder. -/
def stackListing : List Expr → List (Operator ⊕ Literal)
  | [] => []
  | e :: rest => stackListing rest ++ e.postorder

theorem stackListing_readToken {position : Nat} {token : String} {stack stack' : List Expr}
    (h : readToken d position token stack = .ok stack') :
    ∃ x, Denotes d token x ∧ stackListing stack' = stackListing stack ++ [x] := by
  rcases readToken_eq_ok_iff.1 h with ⟨op, left, right, rest, hop, rfl, rfl⟩ | ⟨l, hl, rfl⟩
  · refine ⟨.inl op, hop, ?_⟩
    -- the two topmost listings and the operator join to the listing of the new tree
    simp only [stackListing, Tree.postorder, List.append_assoc]
  · exact ⟨.inr l, hl, rfl⟩

/-! ## All tokens -/

theorem readTokens_append (ts us : List String) (position : Nat) (stack : List Expr) :
    readTokens d position (ts ++ us) stack =
      (do
        let stack ← readTokens d position ts stack
        readTokens d (position + ts.length) us stack) := by
  induction ts generalizing position stack with
  | nil => rfl
  | cons t ts ih =>
    have hlen : position + (t :: ts).length = position + 1 + ts.length := by
      rw [List.length_cons]
      omega
    simp only [List.cons_append, readTokens, ih, hlen, bind_assoc]

/-- What is read is appended to the listing of the stack. -/
theorem stackListing_readTokens {ts : List String} {position : Nat} {stack stack' : List Expr}
    (h : readTokens d position ts stack = .ok stack') :
    ∃ xs, List.Forall₂ (Denotes d) ts xs ∧ stackListing stack' = stackListing stack ++ xs := by
  induction ts generalizing position stack with
  | nil =>
    cases h
    exact ⟨[], .nil, (List.append_nil _).symm⟩
  | cons t ts ih =>
    rw [readTokens] at h
    obtain ⟨mid, hstep, hrest⟩ := bind_eq_ok_iff.1 h
    obtain ⟨x, hx, hmid⟩ := stackListing_readToken hstep
    obtain ⟨xs, hxs, hend⟩ := ih hrest
    refine ⟨x :: xs, .cons hx hxs, ?_⟩
    rw [hend, hmid, List.append_assoc, List.singleton_append]

/-! ## The listing of a tree -/

theorem spells_leaf {ts : List String} {l : Literal}
    (h : List.Forall₂ (Denotes d) ts (Tree.postorder (.leaf l))) :
    ∃ t, ts = [t] ∧ Denotes d t (.inr l) := by
  obtain ⟨t, ts', ht, hts', rfl⟩ := List.forall₂_cons_right_iff.1 h
  cases List.forall₂_nil_right_iff.1 hts'
  exact ⟨t, rfl, ht⟩

/-- The listing of a node is spelled by the tokens of its left tree, those of its right tree and
    its operator. -/
theorem spells_node {ts : List String} {op : Operator} {l r : Expr}
    (h : List.Forall₂ (Denotes d) ts (Tree.postorder (.node op l r))) :
    ∃ us vs t, ts = us ++ (vs ++ [t]) ∧ List.Forall₂ (Denotes d) us l.postorder ∧
      List.Forall₂ (Denotes d) vs r.postorder ∧ Denotes d t (.inl op) := by
  rw [Tree.postorder, List.append_assoc] at h
  have hrest := List.forall₂_drop_append _ _ _ h
  obtain ⟨t, ts', ht, hts', hlast⟩ :=
    List.forall₂_cons_right_iff.1 (List.forall₂_drop_append _ _ _ hrest)
  cases List.forall₂_nil_right_iff.1 hts'
  refine ⟨_, _, t, ?_, List.forall₂_take_append _ _ _ h, List.forall₂_take_append _ _ _ hrest, ht⟩
  rw [← hlast, List.take_append_drop, List.take_append_drop]

/-- Tokens that spell the listing of a tree put the tree on top of any stack. -/
theorem readTokens_of_postorder {e : Expr} {ts : List String}
    (h : List.Forall₂ (Denotes d) ts e.postorder) (position : Nat) (stack : List Expr) :
    readTokens d position ts stack = .ok (e :: stack) := by
  induction e generalizing ts position stack with
  | leaf l =>
    obtain ⟨t, rfl, ht⟩ := spells_leaf h
    have hstep : readToken d position t stack = .ok (.leaf l :: stack) :=
      readToken_eq_ok_iff.2 (.inr ⟨l, ht, rfl⟩)
    rw [readTokens, hstep, ok_bind, readTokens]
  | node op l r ihl ihr =>
    obtain ⟨us, vs, t, rfl, hl, hr, ht⟩ := spells_node h
    have hstep : ∀ p, readToken d p t (r :: l :: stack) = .ok (.node op l r :: stack) :=
      fun p => readToken_eq_ok_iff.2 (.inl ⟨op, l, r, stack, ht, rfl, rfl⟩)
    rw [readTokens_append, ihl hl, ok_bind, readTokens_append, ihr hr, ok_bind, readTokens, hstep,
      ok_bind, readTokens]

/-! ## Trees and texts -/

theorem finish_eq_ok_iff {stack : List Expr} {e : Expr} : finish stack = .ok e ↔ stack = [e] := by
  match stack with
  | [] => simp [finish]
  | [a] => simp [finish]
  | a :: b :: rest => simp [finish]

theorem readTree_eq_ok_iff {ts : List String} {e : Expr} :
    readTree d ts = .ok e ↔ List.Forall₂ (Denotes d) ts e.postorder := by
  constructor
  · intro h
    rw [readTree] at h
    obtain ⟨stack, hs, hfin⟩ := bind_eq_ok_iff.1 h
    cases finish_eq_ok_iff.1 hfin
    obtain ⟨xs, hxs, heq⟩ := stackListing_readTokens hs
    have hlist : e.postorder = xs := by simpa [stackListing] using heq
    exact hlist ▸ hxs
  · intro h
    rw [readTree, readTokens_of_postorder h, ok_bind]
    rfl

/-- No tokens make no tree. -/
theorem readTree_nil (e : Expr) : readTree d [] ≠ .ok e := by
  intro h
  cases h

theorem read_eq_ok_iff {text : String} {e : Expression} :
    Expression.read d text = .ok e ↔
      ∃ r, readTree d (tokenize text) = .ok r ∧ e = ⟨d, r, trimText isBlank text⟩ := by
  unfold Expression.read
  split
  · next h => simp [h, readTree_nil]
  · cases readTree d (tokenize text) with
    | error f => simp
    | ok r => simp [pure, Except.pure, eq_comm]

/-- A text is read as a tree exactly when its tokens spell the listing of the tree in postorder,
    and they spell the listing of at most one tree. -/
theorem read_root_eq_ok_iff_postorder (d : Domain) (text : String) (r : Expr) :
    ((Expression.read d text).map Expression.root = .ok r ↔
        List.Forall₂ (Denotes d) (tokenize text) r.postorder) ∧
      {s : Expr | List.Forall₂ (Denotes d) (tokenize text) s.postorder}.Subsingleton := by
  constructor
  · rw [map_eq_ok_iff, ← readTree_eq_ok_iff]
    simp [read_eq_ok_iff]
  · intro s hs s' hs'
    have h := readTree_eq_ok_iff.2 hs
    rw [readTree_eq_ok_iff.2 hs'] at h
    exact (Except.ok.inj h).symm

end ReversePolish
