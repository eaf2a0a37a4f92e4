import Mathlib.Data.List.Forall2
import ReversePolish.Proofs.Outcome
import ReversePolish.Reading

set_option autoImplicit false

/-! # What a token stands for

In a domain a token stands for one label of a tree or for none: the symbol of an operator of the
domain for that operator, and any other token for the literal it is read as. The position of the
token only matters to the wording of a failure, so it has no part in the label. -/

namespace ReversePolish

/-! ## Symbols -/

namespace Operator

theorem symbol_of_ofSymbol? {s : String} {op : Operator} (h : ofSymbol? s = some op) :
    op.symbol = s := by
  have hs := List.find?_some h
  exact eq_of_beq hs

theorem ofSymbolIn?_eq_some_iff {d : Domain} {s : String} {op : Operator} :
    ofSymbolIn? d s = some op ↔ op.domain = d ∧ op.symbol = s := by
  unfold ofSymbolIn?
  rw [Option.filter_eq_some_iff, beq_iff_eq]
  constructor
  · rintro ⟨hop, hd⟩
    exact ⟨hd, symbol_of_ofSymbol? hop⟩
  · rintro ⟨hd, rfl⟩
    exact ⟨ofSymbol?_symbol op, hd⟩

theorem mem_symbolsOf_iff {d : Domain} {s : String} :
    s ∈ symbolsOf d ↔ ∃ op : Operator, op.domain = d ∧ op.symbol = s := by
  have hall : ∀ op : Operator, op ∈ all := by
    intro op
    cases op <;> decide
  simp only [symbolsOf, List.mem_map, List.mem_filter, hall, true_and, beq_iff_eq]

theorem ofSymbolIn?_eq_none_iff {d : Domain} {s : String} :
    ofSymbolIn? d s = none ↔ s ∉ symbolsOf d := by
  rw [mem_symbolsOf_iff, Option.eq_none_iff_forall_ne_some]
  constructor
  · rintro h ⟨op, hop⟩
    exact h op (ofSymbolIn?_eq_some_iff.2 hop)
  · intro h op hop
    exact h ⟨op, ofSymbolIn?_eq_some_iff.1 hop⟩

end Operator

/-! ## Literals -/

theorem readNumber_eq_ok_iff {token : String} {position : Nat} {l : Literal} :
    readNumber token position = .ok l ↔
      ∃ x, (DecimalLiteral.read? token.toList).map DecimalLiteral.number = some (.finite x) ∧
        l = .number x := by
  unfold readNumber
  split
  · next h => simp [h]
  · next x h => simp [h, eq_comm]
  · next y hy h =>
    -- the number is infinite, and no literal is
    simp only [reduceCtorEq, h, Option.some.injEq, false_iff, not_exists, not_and]
    rintro x rfl
    exact absurd rfl (hy x)

theorem readInterval_eq_ok_iff {token : String} {position : Nat} {l : Literal} :
    readInterval token position = .ok l ↔
      ∃ i, IntervalLiteral.read token.toList = .ok i ∧ l = .interval i := by
  unfold readInterval
  split
  · next i h => simp [h, eq_comm]
  all_goals
    next h => simp [h]

theorem readLiteral_ok_of_ok {d : Domain} {token : String} {p : Nat} {l : Literal}
    (h : readLiteral d token p = .ok l) (q : Nat) : readLiteral d token q = .ok l := by
  cases d with
  | arithmetic => exact readNumber_eq_ok_iff.2 (readNumber_eq_ok_iff.1 h)
  | interval => exact readInterval_eq_ok_iff.2 (readInterval_eq_ok_iff.1 h)

/-- A literal fails for a reason of its own, not for want of a result. -/
theorem readLiteral_ne_noResult {d : Domain} {token : String} {p : Nat} :
    readLiteral d token p ≠ .error (.syntaxError .noResult) := by
  intro h
  cases d with
  | arithmetic =>
    simp only [readLiteral, readNumber] at h
    split at h <;> simp at h
  | interval =>
    simp only [readLiteral, readInterval] at h
    split at h <;> simp at h

theorem domain_of_readLiteral {d : Domain} {token : String} {p : Nat} {l : Literal}
    (h : readLiteral d token p = .ok l) : l.domain = d := by
  cases d with
  | arithmetic =>
    obtain ⟨x, -, rfl⟩ := readNumber_eq_ok_iff.1 h
    rfl
  | interval =>
    obtain ⟨i, -, rfl⟩ := readInterval_eq_ok_iff.1 h
    rfl

/-! ## Labels -/

/-- The token stands for the label in the domain. -/
inductive Denotes (d : Domain) (token : String) : Operator ⊕ Literal → Prop where
  | operator {op : Operator} (domain_eq : op.domain = d) (symbol_eq : op.symbol = token) :
      Denotes d token (.inl op)
  | literal {l : Literal} (not_operator : token ∉ Operator.symbolsOf d)
      (reads : ∀ position, readLiteral d token position = .ok l) : Denotes d token (.inr l)

/-- The domain of a label. -/
def labelDomain : Operator ⊕ Literal → Domain :=
  Sum.elim Operator.domain Literal.domain

theorem Denotes.labelDomain_eq {d : Domain} {token : String} {x : Operator ⊕ Literal}
    (h : Denotes d token x) : labelDomain x = d := by
  cases h with
  | operator hd hs => exact hd
  | literal hop hl => exact domain_of_readLiteral (hl 0)

theorem Denotes.symbol_eq {d : Domain} {token : String} {op : Operator}
    (h : Denotes d token (.inl op)) : op.symbol = token := by
  rcases h with ⟨-, hs⟩ | _
  exact hs

theorem Denotes.mem_symbolsOf {d : Domain} {token : String} {op : Operator}
    (h : Denotes d token (.inl op)) : token ∈ Operator.symbolsOf d :=
  Operator.mem_symbolsOf_iff.2 ⟨op, h.labelDomain_eq, h.symbol_eq⟩

theorem Denotes.not_mem_symbolsOf {d : Domain} {token : String} {l : Literal}
    (h : Denotes d token (.inr l)) : token ∉ Operator.symbolsOf d := by
  rcases h with _ | ⟨hop, -⟩
  exact hop

theorem denotes_inl_iff {d : Domain} {token : String} {op : Operator} :
    Denotes d token (.inl op) ↔ Operator.ofSymbolIn? d token = some op := by
  rw [Operator.ofSymbolIn?_eq_some_iff]
  constructor
  · rintro (⟨hd, hs⟩ | _)
    exact ⟨hd, hs⟩
  · rintro ⟨hd, hs⟩
    exact .operator hd hs

theorem denotes_inr_iff {d : Domain} {token : String} {l : Literal} (position : Nat) :
    Denotes d token (.inr l) ↔
      Operator.ofSymbolIn? d token = none ∧ readLiteral d token position = .ok l := by
  rw [Operator.ofSymbolIn?_eq_none_iff]
  constructor
  · rintro (_ | ⟨hop, hl⟩)
    exact ⟨hop, hl position⟩
  · rintro ⟨hop, hl⟩
    exact .literal hop fun q => readLiteral_ok_of_ok hl q

end ReversePolish
