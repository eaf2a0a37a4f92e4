import ReversePolish.Proofs.AnswerFields
import ReversePolish.Proofs.Delivered
import ReversePolish.Proofs.Edges
import ReversePolish.Proofs.LinearForm
import ReversePolish.Proofs.TrimmedReading

set_option autoImplicit false

/-! # The cells of the summary

The summary hands the source, the value and the forms of an expression to its table as they are.
What a text must be made of to be accepted, and what operands, forms and counts are written with,
has neither square brackets nor backslashes nor colons; only the report of a division by zero has
two colons, and there are words between them. So no cell has anything that could be taken for
markup, whichever characters of it the channel makes question marks. -/

namespace ReversePolish

/-! ## Definitions -/

/-- The characters of which sources, forms and diagrams are made. -/
def isFormChar (c : Char) : Bool :=
  isLiteralChar c || isBlank c || ['*', '/', 'U', 'I', '(', ')', '|', '_'].contains c

/-- A text of such characters. -/
def IsFormText (s : String) : Prop :=
  ∀ c ∈ s.toList, isFormChar c = true

instance (s : String) : Decidable (IsFormText s) :=
  decidable_of_iff (s.toList.all isFormChar = true) List.all_eq_true

/-- The characters that set off markup: tags, escapes and names between colons. -/
def markupChars : List Char :=
  ['[', ']', '\\', ':']

/-- A text without any of these. -/
def IsPlain (s : String) : Prop :=
  ∀ c ∈ s.toList, c ∉ markupChars

instance (s : String) : Decidable (IsPlain s) :=
  decidable_of_iff ((s.toList.all fun c => !markupChars.contains c) = true) (by simp [IsPlain])

/-- Nothing in a text is taken for markup: it has no square bracket and no backslash, and a blank
    stands between any two colons. -/
structure MarkupFree (cs : List Char) : Prop where
  no_opening : '[' ∉ cs
  no_closing : ']' ∉ cs
  no_backslash : '\\' ∉ cs
  blank_between : ∀ a b c, cs = a ++ ':' :: b ++ ':' :: c → ∃ x ∈ b, isBlank x = true

namespace CommandLine

/-- The table of an expression that walks can follow. -/
def tableOf (set : Charset) (e : Expression) : Table :=
  summaryTable set e (valueCell e.trace) (Expr.labels e.root).rendering
    ⟨e.root.height, e.root.leafCount, e.root.operatorCount⟩

end CommandLine

/-! ## Characters -/

section Characters

variable {c : Char}

theorem isFormChar_of_isLiteralChar (h : isLiteralChar c = true) : isFormChar c = true := by
  rw [isFormChar, h, Bool.true_or, Bool.true_or]

theorem isFormChar_of_isBlank (h : isBlank c = true) : isFormChar c = true := by
  rw [isFormChar, h, Bool.or_true, Bool.true_or]

theorem toNat_lt_of_isBlank (h : isBlank c = true) : c.toNat < 0x80 := by
  simp only [isBlank, Bool.or_eq_true, beq_iff_eq] at h
  rcases h with ((((rfl | rfl) | rfl) | rfl) | rfl) | rfl <;> decide

theorem toNat_lt_of_isFormChar (h : isFormChar c = true) : c.toNat < 0x80 := by
  rw [isFormChar, Bool.or_eq_true, Bool.or_eq_true, List.contains_iff_mem] at h
  rcases h with (h | h) | h
  · exact (toNat_of_isLiteralChar h).2
  · exact toNat_lt_of_isBlank h
  · exact toNat_lt_of_all (by decide) c h

theorem not_mem_markupChars_of_isFormChar (h : isFormChar c = true) : c ∉ markupChars := by
  intro hmem
  have hnone : (markupChars.all fun m => !isFormChar m) = true := by decide
  have hc := List.all_eq_true.1 hnone c hmem
  rw [h] at hc
  cases hc

end Characters

theorem IsFormText.append {s t : String} (hs : IsFormText s) (ht : IsFormText t) :
    IsFormText (s ++ t) := by
  rw [IsFormText, String.toList_append, List.forall_mem_append]
  exact ⟨hs, ht⟩

theorem isFormText_symbol (op : Operator) : IsFormText op.symbol := by
  rw [IsFormText, Operator.symbol, String.toList_ofList, List.forall_mem_singleton]
  cases op <;> decide

theorem isFormText_literal (l : Literal) : IsFormText l.text :=
  fun _ hc => isFormChar_of_isLiteralChar (Literal.isLiteralChar_of_mem_text hc)

theorem isFormText_natText (n : Nat) : IsFormText (Decimal.natText n) := by
  intro c hc
  rw [Decimal.natText, String.toList_ofList] at hc
  have hdigit := isNumberChar_of_isDigit (Decimal.isDigit_of_mem_digits hc)
  exact isFormChar_of_isLiteralChar (isLiteralChar_of_isNumberChar hdigit)

/-! ## The source -/

section Source

variable {d : Domain} {text : String} {e : Expression}

/-- The tokens of a text that is accepted are symbols and literals. -/
theorem isFormText_of_mem_tokenize (h : Expression.read d text = .ok e) {token : String}
    (ht : token ∈ tokenize text) : IsFormText token := by
  obtain ⟨r, hr, -⟩ := read_eq_ok_iff.1 h
  obtain ⟨p, hp⟩ := List.mem_iff_getElem?.1 ht
  by_cases hop : token ∈ Operator.symbolsOf d
  · obtain ⟨op, -, rfl⟩ := Operator.mem_symbolsOf_iff.1 hop
    exact isFormText_symbol op
  · cases hread : readLiteral d token p with
    | ok l =>
      exact fun c hc => isFormChar_of_isLiteralChar (isLiteralChar_of_readLiteral hread c hc)
    | error f =>
      have hfit := (exists_readTree_eq_ok_iff.1 ⟨r, hr⟩).1 p
      exact absurd ⟨token, hp, .inr ⟨hop, f, hread⟩⟩ hfit

theorem isFormText_of_read (h : Expression.read d text = .ok e) : IsFormText text := by
  intro c hc
  cases hblank : isBlank c with
  | true => exact isFormChar_of_isBlank hblank
  | false =>
    obtain ⟨t, ht, hct⟩ := exists_mem_tokens hc hblank
    rw [← map_toList_tokenize] at ht
    obtain ⟨token, htoken, rfl⟩ := List.mem_map.1 ht
    exact isFormText_of_mem_tokenize h htoken c hct

theorem mem_of_mem_trim {p : Char → Bool} {cs : List Char} {c : Char} (h : c ∈ trim p cs) :
    c ∈ cs :=
  (List.dropWhile_sublist p).mem ((trim_isPrefix_dropWhile p cs).sublist.mem h)

theorem isFormText_source (h : Expression.read d text = .ok e) : IsFormText e.source := by
  intro c hc
  obtain ⟨r, -, rfl⟩ := read_eq_ok_iff.1 h
  rw [trimText, String.toList_ofList] at hc
  exact isFormText_of_read h c (mem_of_mem_trim hc)

end Source

/-! ## Forms and diagrams -/

namespace Expr

theorem isFormText_form (x : Fixity) (e : Expr) : IsFormText (x.form (labels e)) := by
  have hopen : IsFormText "( " := by decide
  have hspace : IsFormText " " := by decide
  have hclose : IsFormText " )" := by decide
  induction e with
  | leaf l => cases x <;> exact isFormText_literal l
  | node op l r ihl ihr =>
    have hop := isFormText_symbol op
    cases x with
    | between =>
      exact hopen.append ihl |>.append hspace |>.append hop |>.append hspace |>.append ihr
        |>.append hclose
    | inFront =>
      exact hopen.append hop |>.append hspace |>.append ihl |>.append hspace |>.append ihr
        |>.append hclose

theorem isFormText_diagramFrom {indent : String} (hindent : IsFormText indent) (e : Expr) :
    IsFormText ((labels e).diagramFrom indent) := by
  have hbreak : IsFormText "\n" := by decide
  have hbar : IsFormText "|\n" := by decide
  have hbranch : IsFormText "|___" := by decide
  induction e generalizing indent with
  | leaf l => exact isFormText_literal l
  | node op l r ihl ihr =>
    have hop := isFormText_symbol op
    have hleft := ihl (hindent.append (t := "|   ") (by decide))
    have hright := ihr (hindent.append (t := "    ") (by decide))
    exact hop.append hbreak |>.append hindent |>.append hbar |>.append hindent |>.append hbar
      |>.append hindent |>.append hbranch |>.append hleft |>.append hbreak |>.append hindent
      |>.append hbar |>.append hindent |>.append hbranch |>.append hright

theorem isFormText_diagram (e : Expr) : IsFormText (labels e).diagram :=
  isFormText_diagramFrom (by decide) e

end Expr

/-! ## Plain texts -/

theorem IsPlain.append {s t : String} (hs : IsPlain s) (ht : IsPlain t) : IsPlain (s ++ t) := by
  rw [IsPlain, String.toList_append, List.forall_mem_append]
  exact ⟨hs, ht⟩

theorem IsFormText.isPlain {s : String} (h : IsFormText s) : IsPlain s :=
  fun c hc => not_mem_markupChars_of_isFormChar (h c hc)

/-- A value has the text of a literal, or it is no finite number. -/
theorem isPlain_text (v : Operand) : IsPlain v.text := by
  rcases Service.finiteValue?_cases v with ⟨-, l, rfl⟩ | ⟨-, htext⟩
  · exact (isFormText_literal l).isPlain
  · simp only [nonFiniteTexts, List.mem_cons, List.not_mem_nil, or_false] at htext
    rcases htext with htext | htext | htext
    all_goals
      rw [htext]
      decide

theorem isPlain_shownValue (t : Trace) : IsPlain (CommandLine.shownValue t) := by
  have hempty : IsPlain " (puste przecięcie)" := by decide
  unfold CommandLine.shownValue
  split
  · exact (isPlain_text t.value).append hempty
  · exact isPlain_text t.value

/-! ## Texts without markup -/

theorem IsPlain.not_mem_colon {s : String} (h : IsPlain s) : ':' ∉ s.toList :=
  fun hmem => h ':' hmem (by decide)

theorem IsPlain.markupFree {s : String} (h : IsPlain s) : MarkupFree s.toList where
  no_opening hmem := h _ hmem (by decide)
  no_closing hmem := h _ hmem (by decide)
  no_backslash hmem := h _ hmem (by decide)
  blank_between a b c hcs := by
    refine absurd ?_ h.not_mem_colon
    rw [hcs]
    exact List.mem_append_right _ List.mem_cons_self

/-- Plain texts around two colons are not taken for markup if the one in the middle has a blank. -/
theorem markupFree_of_two_colons {s t u : String} (hs : IsPlain s) (ht : IsPlain t)
    (hu : IsPlain u) (hblank : ∃ x ∈ t.toList, isBlank x = true) :
    MarkupFree (s ++ ":" ++ t ++ ":" ++ u).toList := by
  have hlist : (s ++ ":" ++ t ++ ":" ++ u).toList =
      s.toList ++ ':' :: t.toList ++ ':' :: u.toList := by
    simp only [String.toList_append, List.append_assoc]
    rfl
  have hmem : ∀ x ∈ s.toList ++ ':' :: t.toList ++ ':' :: u.toList, x = ':' ∨ x ∉ markupChars := by
    intro x hx
    simp only [List.mem_append, List.mem_cons] at hx
    rcases hx with (hx | rfl | hx) | rfl | hx
    · exact .inr (hs x hx)
    · exact .inl rfl
    · exact .inr (ht x hx)
    · exact .inl rfl
    · exact .inr (hu x hx)
  have hnone : ∀ m ∈ markupChars, m ≠ ':' → m ∉ s.toList ++ ':' :: t.toList ++ ':' :: u.toList :=
    fun m hm hne hx => (hmem m hx).elim hne fun hnot => hnot hm
  rw [hlist]
  refine ⟨hnone _ (by decide) (by decide), hnone _ (by decide) (by decide),
    hnone _ (by decide) (by decide), fun a b c hcs => ?_⟩
  -- both sides have two colons in all, so these are the same ones
  have hcount := congrArg (List.count ':') hcs
  simp only [List.count_append, List.count_cons_self,
    List.count_eq_zero_of_not_mem hs.not_mem_colon, List.count_eq_zero_of_not_mem ht.not_mem_colon,
    List.count_eq_zero_of_not_mem hu.not_mem_colon] at hcount
  have ha : ':' ∉ a := List.count_eq_zero.1 (by omega)
  have hb : ':' ∉ b := List.count_eq_zero.1 (by omega)
  simp only [List.append_assoc, List.cons_append] at hcs
  obtain ⟨-, hcs⟩ := append_cons_inj_of_not_mem hs.not_mem_colon ha hcs
  obtain ⟨rfl, -⟩ := append_cons_inj_of_not_mem ht.not_mem_colon hb hcs
  exact hblank

theorem markupFree_division (a b : Operand) :
    MarkupFree ("BŁĄD: " ++ (EvaluationError.divisionByZero a b).message).toList := by
  -- the literals are named, since matching compares them character by character
  have hparts : ∀ {x x' y y' s t u : String}, x = x' ++ s ++ t → y = y' ++ s ++ t →
      x ++ (y ++ a.text ++ u ++ b.text) =
        x' ++ s ++ (t ++ y') ++ s ++ (t ++ a.text ++ u ++ b.text) := by
    rintro x x' y y' s t u rfl rfl
    simp only [String.append_assoc]
  have hmessage : "BŁĄD: " ++ (EvaluationError.divisionByZero a b).message =
      "BŁĄD" ++ ":" ++ (" " ++ "Division by zero") ++ ":" ++
        (" " ++ a.text ++ " / " ++ b.text) := hparts rfl rfl
  have hspace : IsPlain " " := by decide
  have hvalues := ((hspace.append (isPlain_text a)).append (t := " / ") (by decide)).append
    (isPlain_text b)
  rw [hmessage]
  exact markupFree_of_two_colons (by decide) (by decide) hvalues ⟨' ', by decide, rfl⟩

/-- A question mark in the place of a character is no markup, and colons and blanks stay. -/
theorem MarkupFree.replace {text : String} (h : MarkupFree text.toList) (set : Charset) :
    MarkupFree (set.replace text).toList := by
  let shown (c : Char) : Char := if set.has c then c else '?'
  have hshown : ∀ {c m : Char}, shown c = m → m ≠ '?' → c = m := by
    intro c m hc hm
    by_cases hhas : set.has c = true
    · exact (if_pos hhas).symm.trans hc
    · exact absurd (hc.symm.trans (if_neg hhas)) hm
  have hmem : ∀ {m : Char}, m ≠ '?' → m ∉ text.toList → m ∉ text.toList.map shown := by
    intro m hm hnot hin
    obtain ⟨c, hc, hcm⟩ := List.mem_map.1 hin
    exact hnot (hshown hcm hm ▸ hc)
  rw [Charset.replace, String.toList_ofList]
  refine ⟨hmem (by decide) h.no_opening, hmem (by decide) h.no_closing,
    hmem (by decide) h.no_backslash, fun a b c hcs => ?_⟩
  obtain ⟨ab, c', hab, hfirst, hc⟩ := List.map_eq_append_iff.1 hcs
  obtain ⟨a', b', rfl, rfl, hb⟩ := List.map_eq_append_iff.1 hfirst
  obtain ⟨x, b'', rfl, hx, rfl⟩ := List.map_eq_cons_iff.1 hb
  obtain ⟨y, c'', rfl, hy, rfl⟩ := List.map_eq_cons_iff.1 hc
  obtain rfl := hshown hx (by decide)
  obtain rfl := hshown hy (by decide)
  obtain ⟨z, hz, hblank⟩ := h.blank_between a' b'' c'' hab
  have hsame : shown z = z := if_pos (set.has_of_ascii (toNat_lt_of_isBlank hblank))
  exact ⟨z, List.mem_map.2 ⟨z, hz, hsame⟩, hblank⟩

/-! ## The report -/

namespace CommandLine

variable {d : Domain} {text : String} {e : Expression}

/-- Within the limit an expression that is read has a trace or divides by zero. -/
theorem exists_trace_of_read (hread : Expression.read d text = .ok e)
    (hheight : e.root.height ≤ maxDepth) :
    (∃ t, e.trace = .ok t) ∨ ∃ a b, e.trace = .error (.divisionByZero a b) := by
  rw [Expression.trace, Draft.trace_draft hheight]
  rcases Expr.trace_of_isOver (Expression.isOver_of_read hread).2 with hzero | ⟨t, ht, -⟩
  · exact .inr hzero
  · exact .inl ⟨t, ht⟩

/-- Within the limit the summary is its table and the diagram, behind remarks. -/
theorem exists_reportText_summary (hread : Expression.read d text = .ok e)
    (hheight : e.root.height ≤ maxDepth) (level : LogLevel) (set : Charset) :
    ∃ remarks, (∀ w ∈ remarks, ∃ s, w = .err s) ∧
      reportText level set .summary d text =
        ⟨remarks ++ [.table (tableOf set e).text, line (Expr.labels e.root).diagram], .exit 0⟩ := by
  have hremark : ∀ origin text, ∀ w ∈ remark level origin text, ∃ s, w = .err s := by
    intro origin text w hw
    unfold remark at hw
    split at hw
    · exact ⟨_, List.mem_singleton.1 hw⟩
    · cases hw
  rw [reportText_of_ok hread, reportCommand, reportSummary, Expression.render_of_le hheight,
    Expression.stats?_of_le hheight]
  rcases exists_trace_of_read hread hheight with ⟨t, ht⟩ | ⟨a, b, ht⟩
  · refine ⟨readingRemark level d text, hremark _ _, ?_⟩
    simp only [tableOf, valueCell, ht]
    rfl
  · refine ⟨readingRemark level d text ++
      divisionRemark level (EvaluationError.divisionByZero a b).message,
      List.forall_mem_append.2 ⟨hremark _ _, hremark _ _⟩, ?_⟩
    simp only [tableOf, valueCell, ht, List.append_assoc]
    rfl

theorem table_mem_writes_iff (hread : Expression.read d text = .ok e) (level : LogLevel)
    (set : Charset) (drawn : String) :
    .table drawn ∈ (reportText level set .summary d text).writes ↔
      e.root.height ≤ maxDepth ∧ drawn = (tableOf set e).text := by
  by_cases hheight : e.root.height ≤ maxDepth
  · obtain ⟨remarks, hremarks, hreport⟩ := exists_reportText_summary hread hheight level set
    have hnot : .table drawn ∉ remarks := fun hmem => by
      obtain ⟨s, hs⟩ := hremarks _ hmem
      cases hs
    rw [hreport]
    simp [hnot, hheight, line]
  · have hnone : (reportText level set .summary d text).writes = readingRemark level d text := by
      rw [reportText_of_ok hread, reportCommand, reportSummary,
        Expression.render_of_lt (Nat.lt_of_not_le hheight)]
      exact List.append_nil _
    rw [hnone, readingRemark, remark]
    refine iff_of_false ?_ fun h => hheight h.1
    split <;> simp

theorem markupFree_valueCell (hread : Expression.read d text = .ok e)
    (hheight : e.root.height ≤ maxDepth) : MarkupFree (valueCell e.trace).toList := by
  rcases exists_trace_of_read hread hheight with ⟨t, ht⟩ | ⟨a, b, ht⟩
  · rw [ht]
    exact (isPlain_shownValue t).markupFree
  · rw [ht]
    exact markupFree_division a b

/-- The summary of an accepted text draws one table, and nothing in the cells of this table is
    taken for markup, whatever the channel can carry. -/
theorem summary_cells_are_markupFree (hread : Expression.read d text = .ok e) (level : LogLevel)
    (set : Charset) :
    (∀ drawn, .table drawn ∈ (reportText level set .summary d text).writes ↔
        e.root.height ≤ maxDepth ∧ drawn = (tableOf set e).text) ∧
      (e.root.height ≤ maxDepth →
        ∀ row ∈ (tableOf set e).rows,
          MarkupFree row.1.toList ∧ MarkupFree row.2.toList) := by
  refine ⟨table_mem_writes_iff hread level set, fun hheight row hrow => ?_⟩
  have hnames : ∀ {name value : String}, IsPlain name → MarkupFree value.toList →
      row = (set.replace name, set.replace value) →
        MarkupFree row.1.toList ∧ MarkupFree row.2.toList := by
    rintro name value hname hvalue rfl
    exact ⟨hname.markupFree.replace set, hvalue.replace set⟩
  simp only [tableOf, summaryTable, List.map_cons, List.map_nil, List.mem_cons, List.not_mem_nil,
    or_false] at hrow
  rcases hrow with hrow | hrow | hrow | hrow | hrow | hrow | hrow
  · exact hnames (by decide) (isFormText_source hread).isPlain.markupFree hrow
  · exact hnames (by decide) (markupFree_valueCell hread hheight) hrow
  · exact hnames (by decide) (Expr.isFormText_form .between e.root).isPlain.markupFree hrow
  · exact hnames (by decide) (Expr.isFormText_form .inFront e.root).isPlain.markupFree hrow
  · exact hnames (by decide) (isFormText_natText _).isPlain.markupFree hrow
  · exact hnames (by decide) (isFormText_natText _).isPlain.markupFree hrow
  · exact hnames (by decide) (isFormText_natText _).isPlain.markupFree hrow

/-- A division by zero is shown with two colons, which have words between them on a narrow channel
    too. -/
theorem summary_cells_are_markupFree_of_division :
    ∃ e, Expression.read .arithmetic "1 0 /" = .ok e ∧ e.root.height ≤ maxDepth ∧
      ("warto??", "B??D: Division by zero: 1.0 / 0.0") ∈ (tableOf .ascii e).rows ∧
      ∀ row ∈ (tableOf .ascii e).rows, MarkupFree row.1.toList ∧ MarkupFree row.2.toList := by
  have hread : Expression.read .arithmetic "1 0 /" =
      .ok ⟨.arithmetic, .node .div (.leaf (.number ⟨false, 2 ^ 52, 1022, by decide, by decide,
        .inr (by decide)⟩)) (.leaf (.number (.zero false))), "1 0 /"⟩ := by decide +kernel
  have hcells := (summary_cells_are_markupFree hread .info .ascii).2 (by decide)
  exact ⟨_, hread, by decide, by decide +kernel, hcells⟩

end CommandLine

end ReversePolish
