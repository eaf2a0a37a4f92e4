import ReversePolish.Proofs.Rendered
import ReversePolish.Proofs.RoundTrip

set_option autoImplicit false

/-! # The bracketed forms are uniquely readable

A form on one line is a list of words with single spaces between them: an opening bracket, a
closing one, or the text of a label. No word has a blank in it, so the words are found again as the
tokens of the form. Among the words an opening bracket is no literal; so the first word tells a
leaf from a node, and from there on the words of the subtrees are read one after the other,
whatever follows them. -/

namespace ReversePolish

/-! ## Words -/

/-- Where an operator stands among its subtrees. -/
inductive Fixity where
  | between
  | inFront

namespace Fixity

/-- The form that puts operators there. -/
def form : Fixity → Tree String String → String
  | between => Tree.infixForm
  | inFront => Tree.prefixForm

/-- An operator among the words of its subtrees. -/
def arrange : Fixity → String → List String → List String → List String
  | between, op, left, right => left ++ op :: right
  | inFront, op, left, right => op :: (left ++ right)

theorem mem_arrange {x : Fixity} {op w : String} {left right : List String} :
    w ∈ x.arrange op left right ↔ w = op ∨ w ∈ left ∨ w ∈ right := by
  cases x with
  | between =>
    rw [arrange, List.mem_append, List.mem_cons]
    exact or_left_comm
  | inFront => rw [arrange, List.mem_cons, List.mem_append]

end Fixity

namespace Tree

/-- The words of a form. -/
def words (x : Fixity) : Tree String String → List String
  | leaf a => [a]
  | node op l r => "(" :: (x.arrange op (l.words x) (r.words x) ++ [")"])

theorem words_ne_nil (x : Fixity) (t : Tree String String) : t.words x ≠ [] := by
  cases t <;> exact List.cons_ne_nil _ _

theorem form_eq_intercalate (x : Fixity) (t : Tree String String) :
    x.form t = " ".intercalate (t.words x) := by
  induction t with
  | leaf a => cases x <;> rw [words, String.intercalate_singleton] <;> rfl
  | node op l r ihl ihr =>
    have hl := words_ne_nil x l
    have hr := words_ne_nil x r
    cases x with
    | between =>
      have hform : Fixity.between.form (node op l r) =
          "( " ++ Fixity.between.form l ++ " " ++ op ++ " " ++ Fixity.between.form r ++ " )" := rfl
      rw [hform, ihl, ihr, words, Fixity.arrange, String.intercalate_cons_of_ne_nil (by simp),
        String.intercalate_append_of_ne_nil (by simp) (by simp),
        String.intercalate_append_of_ne_nil hl (by simp), String.intercalate_cons_of_ne_nil hr,
        String.intercalate_singleton]
      simp only [String.append_assoc]
      rfl
    | inFront =>
      have hform : Fixity.inFront.form (node op l r) =
          "( " ++ op ++ " " ++ Fixity.inFront.form l ++ " " ++ Fixity.inFront.form r ++ " )" := rfl
      rw [hform, ihl, ihr, words, Fixity.arrange, String.intercalate_cons_of_ne_nil (by simp),
        String.intercalate_append_of_ne_nil (by simp) (by simp),
        String.intercalate_cons_of_ne_nil (by simp [hl]), String.intercalate_append_of_ne_nil hl hr,
        String.intercalate_singleton]
      simp only [String.append_assoc]
      rfl

end Tree

/-! ## The words are the tokens -/

theorem Literal.text_ne_singleton (l : Literal) {c : Char} (h : isLiteralChar c = false) :
    l.text ≠ String.ofList [c] := by
  intro heq
  have hmem : c ∈ l.text.toList := by
    rw [heq, String.toList_ofList]
    exact List.mem_singleton_self c
  rw [Literal.isLiteralChar_of_mem_text hmem] at h
  cases h

theorem Literal.text_ne_bracket (l : Literal) : l.text ≠ "(" :=
  l.text_ne_singleton (c := '(') (by decide)

namespace Expr

theorem tokenize_of_mem_words {x : Fixity} {e : Expr} {w : String}
    (h : w ∈ (labels e).words x) : tokenize w = [w] := by
  induction e with
  | leaf l =>
    rw [labels_leaf, Tree.words, List.mem_singleton] at h
    rw [h]
    exact tokenize_labelText (.inr l)
  | node op l r ihl ihr =>
    rw [labels_node, Tree.words, List.mem_cons, List.mem_append, Fixity.mem_arrange,
      List.mem_singleton] at h
    rcases h with rfl | (rfl | h | h) | rfl
    · rfl
    · exact tokenize_symbol op
    · exact ihl h
    · exact ihr h
    · rfl

/-- The words of a form are its tokens. -/
theorem tokenize_form (x : Fixity) (e : Expr) :
    tokenize (x.form (labels e)) = (labels e).words x := by
  rw [Tree.form_eq_intercalate]
  exact tokenize_intercalate fun w hw => tokenize_of_mem_words hw

/-! ## Unique readability -/

/-- A tree and what follows it are read off the words, whatever follows. -/
theorem words_append_inj {x : Fixity} {e f : Expr} {r s : List String}
    (h : (labels e).words x ++ r = (labels f).words x ++ s) : e = f ∧ r = s := by
  induction e generalizing f r s with
  | leaf l =>
    cases f with
    | leaf m =>
      obtain ⟨htext, hrest⟩ := List.cons.inj h
      exact ⟨congrArg Tree.leaf (Literal.text_injective htext), hrest⟩
    | node op' a' b' => exact absurd (List.cons.inj h).1 l.text_ne_bracket
  | node op a b iha ihb =>
    cases f with
    | leaf m => exact absurd (List.cons.inj h).1.symm m.text_ne_bracket
    | node op' a' b' =>
      rw [labels_node, labels_node, Tree.words, Tree.words, List.cons_append, List.cons_append] at h
      have hinside := (List.cons.inj h).2
      cases x with
      | between =>
        simp only [Fixity.arrange, List.append_assoc, List.cons_append] at hinside
        obtain ⟨rfl, hright⟩ := iha hinside
        obtain ⟨hop, hright⟩ := List.cons.inj hright
        obtain ⟨rfl, hrest⟩ := ihb hright
        rw [Operator.symbol_injective hop]
        exact ⟨rfl, (List.cons.inj hrest).2⟩
      | inFront =>
        simp only [Fixity.arrange, List.append_assoc, List.cons_append] at hinside
        obtain ⟨hop, hleft⟩ := List.cons.inj hinside
        obtain ⟨rfl, hright⟩ := iha hleft
        obtain ⟨rfl, hrest⟩ := ihb hright
        rw [Operator.symbol_injective hop]
        exact ⟨rfl, (List.cons.inj hrest).2⟩

theorem form_injective {x : Fixity} {e f : Expr} (h : x.form (labels e) = x.form (labels f)) :
    e = f := by
  have hwords := congrArg tokenize h
  rw [tokenize_form, tokenize_form] at hwords
  exact (words_append_inj (congrArg (· ++ []) hwords)).1

end Expr

/-- Two trees of any size share their infix form, or their prefix form, only if they are the same
    tree; so do two expressions, where the walk can follow them. -/
theorem linear_forms_determine_tree :
    (∀ r s : Expr,
        ((Expr.labels r).infixForm = (Expr.labels s).infixForm ↔ r = s) ∧
        ((Expr.labels r).prefixForm = (Expr.labels s).prefixForm ↔ r = s) ∧
        ((Expr.labels r).infixForm = (Expr.labels s).infixForm ↔
          (Expr.labels r).prefixForm = (Expr.labels s).prefixForm)) ∧
      ∀ e f : Expression,
        ((∃ s, e.infixForm = .ok s ∧ f.infixForm = .ok s) ↔
          e.root = f.root ∧ e.root.height ≤ maxDepth) ∧
        ((∃ s, e.prefixForm = .ok s ∧ f.prefixForm = .ok s) ↔
          e.root = f.root ∧ e.root.height ≤ maxDepth) ∧
        ((∃ s, e.infixForm = .ok s ∧ f.infixForm = .ok s) ↔
          ∃ s, e.prefixForm = .ok s ∧ f.prefixForm = .ok s) := by
  constructor
  · intro r s
    have hbetween : (Expr.labels r).infixForm = (Expr.labels s).infixForm ↔ r = s :=
      ⟨fun h => Expr.form_injective (x := .between) h, fun h => h ▸ rfl⟩
    have hinFront : (Expr.labels r).prefixForm = (Expr.labels s).prefixForm ↔ r = s :=
      ⟨fun h => Expr.form_injective (x := .inFront) h, fun h => h ▸ rfl⟩
    exact ⟨hbetween, hinFront, hbetween.trans hinFront.symm⟩
  · intro e f
    have hbetween : (∃ s, e.infixForm = .ok s ∧ f.infixForm = .ok s) ↔
        e.root = f.root ∧ e.root.height ≤ maxDepth :=
      Expression.exists_labels_bind_iff (Expr.form_injective (x := .between))
    have hinFront : (∃ s, e.prefixForm = .ok s ∧ f.prefixForm = .ok s) ↔
        e.root = f.root ∧ e.root.height ≤ maxDepth :=
      Expression.exists_labels_bind_iff (Expr.form_injective (x := .inFront))
    exact ⟨hbetween, hinFront, hbetween.trans hinFront.symm⟩

end ReversePolish
