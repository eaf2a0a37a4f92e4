import ReversePolish.Proofs.IntervalText
import ReversePolish.Proofs.Label
import ReversePolish.Proofs.NumberText
import ReversePolish.Proofs.Tokens

set_option autoImplicit false

/-! # The text of a literal

What the grammars of numbers and intervals accept has few characters, none of them blank, and is
no operator, whoever wrote it; so the text of a literal, which is accepted, is one token, and the
token stands for this literal. Only an interval has a comma, so the text tells the literal. -/

namespace ReversePolish

/-! ## The characters of literals -/

/-- A digit, a sign, a point or the mark of an exponent. -/
def isNumberChar (c : Char) : Bool :=
  c.isDigit || ['+', '-', '.', 'e', 'E'].contains c

/-- A character of a number, or the comma between two bounds. -/
def isLiteralChar (c : Char) : Bool :=
  isNumberChar c || c == ','

theorem isNumberChar_of_isDigit {c : Char} (h : c.isDigit = true) : isNumberChar c = true := by
  rw [isNumberChar, h, Bool.true_or]

theorem isLiteralChar_of_isNumberChar {c : Char} (h : isNumberChar c = true) :
    isLiteralChar c = true := by
  rw [isLiteralChar, h, Bool.true_or]

theorem isBlank_of_isLiteralChar {c : Char} (h : isLiteralChar c = true) : isBlank c = false := by
  cases hb : isBlank c with
  | false => rfl
  | true =>
    simp only [isBlank, Bool.or_eq_true, beq_iff_eq] at hb
    rcases hb with ((((rfl | rfl) | rfl) | rfl) | rfl) | rfl <;> exact absurd h (by decide)

theorem isNumberChar_of_isInteger {c : Char} {cs : List Char} (h : Decimal.isInteger cs = true)
    (hc : c ∈ cs) : isNumberChar c = true := by
  rcases Decimal.mem_of_isInteger h hc with rfl | rfl | hc
  · rfl
  · rfl
  · exact isNumberChar_of_isDigit hc

namespace DecimalLiteral

theorem isNumberChar_of_readExponent? {cs : List Char} {e : Int}
    (h : readExponent? cs = some e) {c : Char} (hc : c ∈ cs) : isNumberChar c = true := by
  cases cs with
  | nil => exact absurd hc List.not_mem_nil
  | cons d ds =>
    rw [readExponent?, Option.ite_none_right_eq_some, Bool.and_eq_true, Bool.or_eq_true, beq_iff_eq,
      beq_iff_eq] at h
    obtain ⟨⟨hd, hds⟩, -⟩ := h
    rcases List.mem_cons.1 hc with rfl | hc
    · rcases hd with rfl | rfl <;> rfl
    · exact isNumberChar_of_isInteger hds hc

theorem isNumberChar_of_not_mem_dropWhile {c : Char} {cs : List Char} (hc : c ∈ cs)
    (hdrop : c ∉ cs.dropWhile Char.isDigit) : isNumberChar c = true := by
  rw [← List.takeWhile_append_dropWhile (p := Char.isDigit) (l := cs)] at hc
  have htake := (List.mem_append.1 hc).resolve_right hdrop
  exact isNumberChar_of_isDigit (List.all_eq_true.1 List.all_takeWhile c htake)

theorem isNumberChar_of_readUnsigned? {s : Bool} {cs : List Char} {l : DecimalLiteral}
    (h : readUnsigned? s cs = some l) {c : Char} (hc : c ∈ cs) : isNumberChar c = true := by
  by_cases hdrop : c ∈ cs.dropWhile Char.isDigit
  · unfold readUnsigned? at h
    dsimp only at h
    split at h
    · next rest hrest =>
      -- behind the point come digits and the exponent
      simp only [Option.ite_none_left_eq_some, Option.map_eq_some_iff] at h
      obtain ⟨-, e, he, -⟩ := h
      rw [hrest] at hdrop
      rcases List.mem_cons.1 hdrop with rfl | hdrop
      · rfl
      · by_cases hexponent : c ∈ rest.dropWhile Char.isDigit
        · exact isNumberChar_of_readExponent? he hexponent
        · exact isNumberChar_of_not_mem_dropWhile hdrop hexponent
    · simp only [Option.ite_none_left_eq_some, Option.map_eq_some_iff] at h
      obtain ⟨-, e, he, -⟩ := h
      exact isNumberChar_of_readExponent? he hdrop
  · exact isNumberChar_of_not_mem_dropWhile hc hdrop

theorem isNumberChar_of_read? {cs : List Char} {l : DecimalLiteral} (h : read? cs = some l)
    {c : Char} (hc : c ∈ cs) : isNumberChar c = true := by
  rcases Decimal.mem_splitSign hc with rfl | rfl | hc
  · rfl
  · rfl
  · exact isNumberChar_of_readUnsigned? h hc

end DecimalLiteral

namespace IntervalLiteral

theorem isLiteralChar_of_read {cs : List Char} {i : Interval} (h : read cs = .ok i) {c : Char}
    (hc : c ∈ cs) : isLiteralChar c = true := by
  obtain ⟨s, e, rfl, hs, he⟩ := integers_of_read h
  rcases List.mem_append.1 hc with hc | hc
  · exact isLiteralChar_of_isNumberChar (isNumberChar_of_isInteger hs hc)
  · rcases List.mem_cons.1 hc with rfl | hc
    · rfl
    · exact isLiteralChar_of_isNumberChar (isNumberChar_of_isInteger he hc)

end IntervalLiteral

/-! ## Tokens and operators -/

theorem isLiteralChar_of_readLiteral {d : Domain} {token : String} {position : Nat} {l : Literal}
    (h : readLiteral d token position = .ok l) : ∀ c ∈ token.toList, isLiteralChar c = true := by
  intro c hc
  cases d with
  | arithmetic =>
    obtain ⟨x, hx, -⟩ := readNumber_eq_ok_iff.1 h
    obtain ⟨y, hy, -⟩ := Option.map_eq_some_iff.1 hx
    exact isLiteralChar_of_isNumberChar (DecimalLiteral.isNumberChar_of_read? hy hc)
  | interval =>
    obtain ⟨i, hi, -⟩ := readInterval_eq_ok_iff.1 h
    exact IntervalLiteral.isLiteralChar_of_read hi hc

theorem toList_ne_nil_of_readLiteral {d : Domain} {token : String} {position : Nat} {l : Literal}
    (h : readLiteral d token position = .ok l) : token.toList ≠ [] := by
  intro hnil
  cases d with
  | arithmetic =>
    obtain ⟨x, hx, -⟩ := readNumber_eq_ok_iff.1 h
    rw [hnil] at hx
    cases hx
  | interval =>
    obtain ⟨i, hi, -⟩ := readInterval_eq_ok_iff.1 h
    rw [hnil] at hi
    cases hi

/-- A token that is a literal is found as one token. -/
theorem tokenize_of_readLiteral {d : Domain} {token : String} {position : Nat} {l : Literal}
    (h : readLiteral d token position = .ok l) : tokenize token = [token] :=
  tokenize_of_not_blank (toList_ne_nil_of_readLiteral h) fun c hc =>
    isBlank_of_isLiteralChar (isLiteralChar_of_readLiteral h c hc)

theorem tokenize_symbol (op : Operator) : tokenize op.symbol = [op.symbol] := by
  cases op <;> rfl

theorem DecimalLiteral.read?_symbol (op : Operator) : read? op.symbol.toList = none := by
  cases op <;> rfl

theorem IntervalLiteral.read_symbol (op : Operator) :
    read op.symbol.toList = .error (.format .missingComma) := by
  cases op <;> rfl

/-- No operator is a literal. -/
theorem readLiteral_symbol_ne_ok {d : Domain} {op : Operator} {position : Nat} {l : Literal} :
    readLiteral d op.symbol position ≠ .ok l := by
  intro h
  cases d with
  | arithmetic =>
    obtain ⟨x, hx, -⟩ := readNumber_eq_ok_iff.1 h
    rw [DecimalLiteral.read?_symbol] at hx
    cases hx
  | interval =>
    obtain ⟨i, hi, -⟩ := readInterval_eq_ok_iff.1 h
    rw [IntervalLiteral.read_symbol] at hi
    cases hi

/-! ## The text of a literal -/

namespace Literal

theorem readLiteral_text (l : Literal) (position : Nat) :
    readLiteral l.domain l.text position = .ok l := by
  cases l with
  | number x =>
    refine readNumber_eq_ok_iff.2 ⟨x, ?_, rfl⟩
    exact (congrArg (fun cs => (DecimalLiteral.read? cs).map DecimalLiteral.number)
      String.toList_ofList).trans x.read?_chars
  | interval i =>
    refine readInterval_eq_ok_iff.2 ⟨i, ?_, rfl⟩
    exact (congrArg IntervalLiteral.read String.toList_ofList).trans (IntervalLiteral.read_chars i)

theorem isLiteralChar_of_mem_text {l : Literal} {c : Char} (hc : c ∈ l.text.toList) :
    isLiteralChar c = true := by
  rw [text, Operand.text, String.toList_ofList] at hc
  cases l with
  | number x =>
    obtain ⟨y, hy, -⟩ := Option.map_eq_some_iff.1 x.read?_chars
    exact isLiteralChar_of_isNumberChar (DecimalLiteral.isNumberChar_of_read? hy hc)
  | interval i => exact IntervalLiteral.isLiteralChar_of_read (IntervalLiteral.read_chars i) hc

/-- Only intervals have a comma. -/
theorem comma_mem_text_iff {l : Literal} : ',' ∈ l.text.toList ↔ l.domain = .interval := by
  rw [text, Operand.text, String.toList_ofList]
  cases l with
  | number x =>
    refine iff_of_false (fun hmem => ?_) Domain.noConfusion
    obtain ⟨y, hy, -⟩ := Option.map_eq_some_iff.1 x.read?_chars
    exact absurd (DecimalLiteral.isNumberChar_of_read? hy hmem) (by decide)
  | interval i =>
    refine iff_of_true ?_ rfl
    exact List.mem_append_right _ List.mem_cons_self

/-- The text tells the literal, whatever its domain. -/
theorem text_injective : Function.Injective text := by
  intro l m h
  have hdomain : l.domain = .interval ↔ m.domain = .interval := by
    rw [← comma_mem_text_iff, h, comma_mem_text_iff]
  have hsame : l.domain = m.domain := by
    cases hl : l.domain <;> cases hm : m.domain <;> simp_all
  have hread := l.readLiteral_text 0
  rw [h, hsame, m.readLiteral_text 0] at hread
  exact (Except.ok.inj hread).symm

theorem text_not_mem_symbolsOf (l : Literal) : l.text ∉ Operator.symbolsOf l.domain := by
  intro hmem
  obtain ⟨op, -, hs⟩ := Operator.mem_symbolsOf_iff.1 hmem
  have hread := l.readLiteral_text 0
  rw [← hs] at hread
  exact readLiteral_symbol_ne_ok hread

end Literal

end ReversePolish
