import ReversePolish.Proofs.LiteralText
import ReversePolish.Proofs.Typing

set_option autoImplicit false

/-! # Writing a tree and reading it back

The canonical text of a tree lists its labels in postorder, every literal and every operator in
its own text, with single spaces between them. Each of these texts is one token and stands for
its label, so the tokens of the whole text spell the listing of the tree, and reading them builds
the tree again. -/

namespace ReversePolish

attribute [local instance] corePow

/-! ## The text of a label -/

/-- The text of a label. -/
def labelText : Operator ⊕ Literal → String :=
  Sum.elim Operator.symbol Literal.text

theorem denotes_labelText (x : Operator ⊕ Literal) : Denotes (labelDomain x) (labelText x) x := by
  cases x with
  | inl op => exact .operator rfl rfl
  | inr l => exact .literal l.text_not_mem_symbolsOf l.readLiteral_text

theorem spells_map_labelText {d : Domain} {xs : List (Operator ⊕ Literal)}
    (h : ∀ x ∈ xs, labelDomain x = d) : List.Forall₂ (Denotes d) (xs.map labelText) xs := by
  rw [List.forall₂_map_left_iff, List.forall₂_same]
  intro x hx
  have hden := denotes_labelText x
  rw [h x hx] at hden
  exact hden

theorem tokenize_labelText (x : Operator ⊕ Literal) : tokenize (labelText x) = [labelText x] := by
  cases x with
  | inl op => exact tokenize_symbol op
  | inr l => exact tokenize_of_readLiteral (l.readLiteral_text 0)

/-! ## The text of a tree -/

namespace Expr

/-- The canonical text in reverse Polish notation. -/
def postfixText (e : Expr) : String :=
  " ".intercalate ((Tree.postorder e).map labelText)

theorem tokenize_postfixText (e : Expr) :
    tokenize (postfixText e) = (Tree.postorder e).map labelText := by
  refine tokenize_intercalate fun t ht => ?_
  obtain ⟨x, -, rfl⟩ := List.mem_map.1 ht
  exact tokenize_labelText x

end Expr

/-- Every tree over a domain is read back from its canonical text, signs of zeros and last bits
    included, and the text of every literal is one token, which the grammar of its domain reads
    as this literal. -/
theorem read_postfixText (d : Domain) :
    (∀ r, Expr.IsOver d r →
        (Expression.read d (Expr.postfixText r)).map Expression.root = .ok r) ∧
      ∀ l : Literal, l.domain = d → tokenize l.text = [l.text] ∧ Denotes d l.text (.inr l) := by
  constructor
  · intro r hr
    have hread : readTree d (tokenize (Expr.postfixText r)) = .ok r := by
      rw [Expr.tokenize_postfixText, readTree_eq_ok_iff]
      exact spells_map_labelText hr
    rw [map_eq_ok_iff]
    exact ⟨_, read_eq_ok_iff.2 ⟨r, hread, rfl⟩, rfl⟩
  · rintro l rfl
    exact ⟨tokenize_labelText (.inr l), denotes_labelText (.inr l)⟩

/-- Negative zero over the difference of the least positive number and minus one and a half. -/
def edgeQuotient : Expr :=
  .node .div (.leaf (.number (.zero true)))
    (.node .sub
      (.leaf (.number ⟨false, 1, 0, by decide, (Binary64.Finite.zero false).exponent_le, .inl rfl⟩))
      (.leaf (.number ⟨true, 3 * 2 ^ (51 : Nat), 1022, by decide, by decide, .inr (by decide)⟩)))

theorem read_postfixText_edgeQuotient :
    Expr.IsOver .arithmetic edgeQuotient ∧
      (Expression.read .arithmetic "-0.0 5e-324 -1.5 - /").map Expression.root =
        .ok edgeQuotient := by
  have hover : Expr.IsOver .arithmetic edgeQuotient := by decide
  have htext : Expr.postfixText edgeQuotient = "-0.0 5e-324 -1.5 - /" := by decide +kernel
  have hread := (read_postfixText .arithmetic).1 edgeQuotient hover
  rw [htext] at hread
  exact ⟨hover, hread⟩

end ReversePolish
