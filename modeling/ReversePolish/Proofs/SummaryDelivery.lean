import ReversePolish.Proofs.Call
import ReversePolish.Proofs.SummaryCells
import ReversePolish.Proofs.TableLayout

set_option autoImplicit false

/-! # The summary on narrow channels

The cells of the summary are replaced before the table is drawn, and the diagram is ASCII, so both
are carried by every channel. Two things in the table are not replaced: the title, which has letters
that ASCII lacks, and the ellipsis that stands for what is cut off a word. So the summary is never
shown on a channel for ASCII, and on a channel for ISO 8859-3, which has all letters of the title,
exactly if no word of a value is too long. -/

namespace ReversePolish

/-! ## Characters outside a set -/

namespace Charset

variable {set : Charset} {text : String} {c : Char}

theorem firstOutside?_eq_some {pre post : List Char} (h : text.toList = pre ++ c :: post)
    (hpre : ∀ a ∈ pre, set.has a = true) (hc : set.has c = false) :
    set.firstOutside? text = some (pre.length, c) := by
  rw [firstOutside?, Option.map_eq_some_iff]
  refine ⟨(c, pre.length), List.find?_eq_some_iff_append.2 ⟨by simp [hc], pre.zipIdx,
    post.zipIdx (pre.length + 1), ?_, fun p hp => ?_⟩, rfl⟩
  · rw [h, List.zipIdx_append, List.zipIdx_cons, Nat.zero_add]
  · simp [hpre p.1 (List.fst_mem_of_mem_zipIdx hp)]

theorem of_firstOutside?_eq_some {p : Nat} (h : set.firstOutside? text = some (p, c)) :
    c ∈ text.toList ∧ set.has c = false := by
  obtain ⟨⟨a, i⟩, hfind, hpair⟩ := Option.map_eq_some_iff.1 h
  cases hpair
  have hmem := List.fst_mem_of_mem_zipIdx (List.mem_of_find?_eq_some hfind)
  have hout := List.find?_some hfind
  exact ⟨hmem, by simpa using hout⟩

theorem length_replace (set : Charset) (text : String) :
    (set.replace text).length = text.length := by
  rw [replace, ← String.length_toList, String.toList_ofList, List.length_map, String.length_toList]

end Charset

theorem IsFormText.hasAll {s : String} (h : IsFormText s) (set : Charset) :
    set.hasAll s = true :=
  List.all_eq_true.2 fun c hc => set.has_of_ascii (toNat_lt_of_isFormChar (h c hc))

namespace CommandLine

variable {set : Charset} {d : Domain} {text : String} {e : Expression} {c : Char}

/-! ## Definitions -/

/-- What the summary of an expression within the limit leaves on a channel. -/
inductive SummaryDelivered (e : Expression) (delivery : Delivery) : Charset → Prop where
  | shown {set : Charset}
      (carries : set = .utf8 ∨ set = .latin3 ∧ ¬ (tableOf set e).HasLongWord)
      (out_eq : delivery.out = (tableOf set e).text ++ ((Expr.labels e.root).diagram ++ "\n"))
      (ending_eq : delivery.ending = .exit 0) : SummaryDelivered e delivery set
  /-- The title has a letter that ASCII lacks. -/
  | title {position : Nat}
      (first : Charset.ascii.firstOutside? (tableOf .ascii e).text = some (position, 'ż'))
      (out_eq : delivery.out = "")
      (ending_eq : delivery.ending = .failure (.unencodable .ascii 'ż' position true)) :
      SummaryDelivered e delivery .ascii
  /-- What is cut off a word leaves an ellipsis. -/
  | ellipsis {position : Nat} (long : (tableOf .latin3 e).HasLongWord)
      (first : Charset.latin3.firstOutside? (tableOf .latin3 e).text = some (position, '…'))
      (out_eq : delivery.out = "")
      (ending_eq : delivery.ending = .failure (.unencodable .latin3 '…' position true)) :
      SummaryDelivered e delivery .latin3

theorem SummaryDelivered.exists_ending_eq {delivery : Delivery}
    (h : SummaryDelivered e delivery .latin3) (hlong : (tableOf .latin3 e).HasLongWord) :
    ∃ p, delivery.ending = .failure (.unencodable .latin3 '…' p true) := by
  cases h with
  | shown carries =>
    rcases carries with hset | ⟨-, hshort⟩
    · cases hset
    · exact absurd hlong hshort
  | ellipsis _ _ _ ending_eq => exact ⟨_, ending_eq⟩

/-! ## The cells and the title -/

theorem hasAll_of_mem_rows {row : String × String} (h : row ∈ (tableOf set e).rows) :
    set.hasAll row.1 = true ∧ set.hasAll row.2 = true := by
  obtain ⟨cell, -, rfl⟩ := List.mem_map.1 h
  exact ⟨set.hasAll_replace _, set.hasAll_replace _⟩

theorem title_tableOf (set : Charset) (e : Expression) :
    (tableOf set e).title = "Wyrażenie (" ++ e.domain.name ++ ")" := rfl

theorem splitWords_title (set : Charset) (e : Expression) :
    Table.splitWords [] false (tableOf set e).title.toList =
      ["Wyrażenie ".toList, ("(" ++ e.domain.name ++ ")").toList] := by
  rw [title_tableOf]
  cases e.domain <;> decide +kernel

theorem nameWidth_tableOf (set : Charset) (e : Expression) : (tableOf set e).nameWidth = 10 := by
  simp only [Table.nameWidth, tableOf, summaryTable, List.map_cons, List.map_nil,
    Charset.length_replace]
  decide +kernel

theorem lt_width_tableOf (set : Charset) (e : Expression) : 13 < (tableOf set e).width := by
  rw [Table.width, nameWidth_tableOf]
  omega

/-- The title is broken, not cut. -/
theorem not_isLong_title {w : List Char}
    (h : w ∈ Table.splitWords [] false (tableOf set e).title.toList) :
    ¬ Table.IsLong (tableOf set e).width w := by
  have hshort : (Table.dropTrailing w).length ≤ 12 := by
    rw [splitWords_title, List.mem_pair] at h
    rcases h with rfl | rfl
    · decide
    · cases e.domain <;> decide
  have hwidth := lt_width_tableOf set e
  exact Nat.not_lt.2 (by omega)

/-! ## The table -/

/-- A channel that has the letters of the title may lack the ellipsis and nothing else. -/
theorem eq_ellipsis_of_mem_text (hset : set ≠ .ascii) (h : c ∈ (tableOf set e).text.toList)
    (hc : set.has c = false) : c = '…' := by
  have houtside : ∀ a, set.has a = true → a ≠ c := by
    rintro a ha rfl
    rw [ha] at hc
    cases hc
  have hframe : c ∉ Table.frameChars := fun hmem =>
    houtside c (set.has_of_ascii (toNat_lt_of_all (by decide) c hmem)) rfl
  have htitle : set.hasAll (tableOf set e).title = true := by
    rw [title_tableOf]
    cases set with
    | ascii => exact absurd rfl hset
    | utf8 => exact hasAll_utf8 _
    | latin3 => cases e.domain <;> decide +kernel
  rcases Table.mem_of_mem_text hframe h with hellipsis | hmem | ⟨row, hrow, hmem | hmem⟩
  · exact hellipsis
  · exact absurd rfl (houtside c (List.all_eq_true.1 htitle c hmem))
  · exact absurd rfl (houtside c (List.all_eq_true.1 (hasAll_of_mem_rows hrow).1 c hmem))
  · exact absurd rfl (houtside c (List.all_eq_true.1 (hasAll_of_mem_rows hrow).2 c hmem))

theorem ellipsis_mem_text_tableOf_iff (hset : set.has '…' = false) :
    '…' ∈ (tableOf set e).text.toList ↔ (tableOf set e).HasLongWord := by
  have hnot : ∀ {s : String}, set.hasAll s = true → '…' ∉ s.toList := by
    intro s hs hmem
    rw [List.all_eq_true.1 hs _ hmem] at hset
    cases hset
  have htitle : '…' ∉ (tableOf set e).title.toList := by
    rw [title_tableOf]
    cases e.domain <;> decide +kernel
  rw [Table.ellipsis_mem_text_iff htitle fun row hrow =>
    ⟨hnot (hasAll_of_mem_rows hrow).1, hnot (hasAll_of_mem_rows hrow).2⟩]
  exact or_iff_right fun ⟨w, hw, hlong⟩ => not_isLong_title hw hlong

theorem hasAll_text_latin3_iff :
    Charset.latin3.hasAll (tableOf .latin3 e).text = true ↔
      ¬ (tableOf .latin3 e).HasLongWord := by
  rw [← ellipsis_mem_text_tableOf_iff (by decide), Charset.hasAll, List.all_eq_true]
  constructor
  · intro hall hmem
    exact absurd (hall _ hmem) (by decide)
  · intro hnone c hc
    by_contra hout
    have hellipsis := eq_ellipsis_of_mem_text (by decide) hc (Bool.eq_false_iff.2 hout)
    exact hnone (hellipsis ▸ hc)

/-- In front of the first letter that ASCII lacks there are spaces and four letters. -/
theorem exists_firstOutside?_ascii (e : Expression) :
    ∃ p, Charset.ascii.firstOutside? (tableOf .ascii e).text = some (p, 'ż') := by
  have hwidth := lt_width_tableOf .ascii e
  have hword : Table.dropTrailing "Wyrażenie ".toList = "Wyra".toList ++ 'ż' :: "enie".toList := by
    decide
  have hfits : (Table.dropTrailing "Wyrażenie ".toList).length < (tableOf .ascii e).width := by
    rw [hword]
    exact Nat.lt_trans (by decide) hwidth
  obtain ⟨n, rest, htext⟩ := Table.exists_text_eq (splitWords_title .ascii e) hfits
  have hpre : ∀ a ∈ List.replicate n ' ' ++ "Wyra".toList, Charset.ascii.has a = true := by
    refine List.forall_mem_append.2 ⟨fun a ha => ?_, List.all_eq_true.1 (by decide)⟩
    rw [List.eq_of_mem_replicate ha]
    rfl
  have hsplit : (tableOf .ascii e).text.toList =
      (List.replicate n ' ' ++ "Wyra".toList) ++ 'ż' :: ("enie".toList ++ rest) := by
    rw [htext, hword]
    simp only [List.append_assoc, List.cons_append]
  exact ⟨_, Charset.firstOutside?_eq_some hsplit hpre (by decide)⟩

/-! ## Delivery -/

/-- What is written on standard error first changes neither standard output nor the ending. -/
theorem deliverWrites_append {remarks : List Write} (h : ∀ w ∈ remarks, ∃ s, w = .err s)
    (set : Charset) (ending : Ending) (writes : List Write) :
    (deliverWrites set ending (remarks ++ writes)).out = (deliverWrites set ending writes).out ∧
      (deliverWrites set ending (remarks ++ writes)).ending =
        (deliverWrites set ending writes).ending := by
  induction remarks with
  | nil => exact ⟨rfl, rfl⟩
  | cons w remarks ih =>
    obtain ⟨⟨s, rfl⟩, hrest⟩ := List.forall_mem_cons.1 h
    exact ih hrest

/-- The diagram follows the table where the table is carried, and nothing is left on standard
    output where it is not. -/
theorem deliver_reportText_summary (hread : Expression.read d text = .ok e)
    (hheight : e.root.height ≤ maxDepth) (level : LogLevel) (set : Charset) :
    let delivery := (reportText level set .summary d text).deliver set
    (set.firstOutside? (tableOf set e).text = none →
        delivery.out = (tableOf set e).text ++ ((Expr.labels e.root).diagram ++ "\n") ∧
          delivery.ending = .exit 0) ∧
      ∀ p c, set.firstOutside? (tableOf set e).text = some (p, c) →
        delivery.out = "" ∧ delivery.ending = .failure (.unencodable set c p true) := by
  obtain ⟨remarks, hremarks, hreport⟩ := exists_reportText_summary hread hheight level set
  have hdiagram : set.hasAll ((Expr.labels e.root).diagram ++ "\n") = true :=
    ((Expr.isFormText_diagram e.root).append (t := "\n") (by decide)).hasAll set
  obtain ⟨hout, hending⟩ := deliverWrites_append hremarks set (.exit 0)
    [.table (tableOf set e).text, line (Expr.labels e.root).diagram]
  rw [deliverWrites, line, deliverWrites, Delivery.writeOut_of_hasAll _ _ hdiagram, deliverWrites,
    String.append_empty, Delivery.writeOut] at hout hending
  rw [hreport]
  intro delivery
  refine ⟨fun hnone => ?_, fun p c hsome => ?_⟩
  · rw [hnone] at hout hending
    exact ⟨hout, hending⟩
  · rw [hsome] at hout hending
    exact ⟨hout, hending⟩

theorem summaryDelivered_of_read (hread : Expression.read d text = .ok e)
    (hheight : e.root.height ≤ maxDepth) (level : LogLevel) (set : Charset) :
    SummaryDelivered e ((reportText level set .summary d text).deliver set) set := by
  obtain ⟨hshown, hstopped⟩ := deliver_reportText_summary hread hheight level set
  cases set with
  | utf8 =>
    obtain ⟨hout, hending⟩ := hshown (Charset.firstOutside?_eq_none_iff.2 (hasAll_utf8 _))
    exact .shown (.inl rfl) hout hending
  | ascii =>
    obtain ⟨p, hp⟩ := exists_firstOutside?_ascii e
    obtain ⟨hout, hending⟩ := hstopped p _ hp
    exact .title hp hout hending
  | latin3 =>
    cases hfirst : Charset.latin3.firstOutside? (tableOf .latin3 e).text with
    | none =>
      obtain ⟨hout, hending⟩ := hshown hfirst
      have hshort := hasAll_text_latin3_iff.1 (Charset.firstOutside?_eq_none_iff.1 hfirst)
      exact .shown (.inr ⟨rfl, hshort⟩) hout hending
    | some first =>
      obtain ⟨p, c⟩ := first
      obtain ⟨hmem, hc⟩ := Charset.of_firstOutside?_eq_some hfirst
      obtain rfl := eq_ellipsis_of_mem_text (by decide) hmem hc
      obtain ⟨hout, hending⟩ := hstopped p _ hfirst
      exact .ellipsis ((ellipsis_mem_text_tableOf_iff (by decide)).1 hmem) hfirst hout hending

/-- The summary of an accepted text is shown on a channel for UTF-8, fails on one for ASCII at a
    letter of its title, and is shown on one for ISO 8859-3 unless a word of a value is too long;
    its names, its values and its diagram are carried by each of them. -/
theorem summary_is_delivered {environment : List (String × String)} {file : Option String}
    {settings : Settings} {level : LogLevel}
    (hsettings : Settings.read environment file = .ok settings)
    (hlevel : LogLevel.ofName? settings.logLevel = some level)
    (hread : Expression.read d text = .ok e) (hheight : e.root.height ≤ maxDepth) (input : String)
    (set : Charset) :
    SummaryDelivered e (run ⟨environment, file, callOn .summary d text, input, set⟩) set ∧
      (∀ row ∈ (tableOf set e).rows, set.hasAll row.1 = true ∧ set.hasAll row.2 = true) ∧
      set.hasAll (Expr.labels e.root).diagram = true := by
  refine ⟨?_, fun row hrow => hasAll_of_mem_rows hrow,
    (Expr.isFormText_diagram e.root).hasAll set⟩
  rw [run_callOn hsettings hlevel (ne_markerText_of_read hread)]
  exact summaryDelivered_of_read hread hheight level set

/-- A literal of 67 digits is a word too long for its column. -/
theorem summary_is_delivered_of_long_literal :
    let text := String.ofList (List.replicate 66 '0' ++ ['1'])
    let summary (set : Charset) : Delivery :=
      run ⟨[], none, callOn .summary .arithmetic text, "", set⟩
    ∃ e, Expression.read .arithmetic text = .ok e ∧ e.root.height ≤ maxDepth ∧
      (∀ set, SummaryDelivered e (summary set) set) ∧
      ∃ p, (summary .latin3).ending = .failure (.unencodable .latin3 '…' p true) := by
  intro text summary
  have hread : Expression.read .arithmetic text =
      .ok ⟨.arithmetic, .leaf (.number ⟨false, 2 ^ 52, 1022, by decide, by decide,
        .inr (Nat.le_refl _)⟩), text⟩ := by decide +kernel
  have hlong : (tableOf .latin3 ⟨.arithmetic, .leaf (.number ⟨false, 2 ^ 52, 1022, by decide,
      by decide, .inr (Nat.le_refl _)⟩), text⟩).HasLongWord := by decide +kernel
  have hsettings : Settings.read [] none = .ok .default := by decide +kernel
  have hlevel : LogLevel.ofName? Settings.default.logLevel = some .info := by decide +kernel
  have hdelivered := fun set =>
    (summary_is_delivered hsettings hlevel hread (by decide) "" set).1
  exact ⟨_, hread, by decide, hdelivered, (hdelivered .latin3).exists_ending_eq hlong⟩

/-- The summary of a literal is not shown on a channel for ASCII. -/
theorem summary_is_not_delivered_of_title :
    ∃ e, Expression.read .arithmetic "1" = .ok e ∧ e.root.height ≤ maxDepth ∧
      (run ⟨[], none, callOn .summary .arithmetic "1", "", .ascii⟩).ending =
        .failure (.unencodable .ascii 'ż' 8 true) := by
  have hread : Expression.read .arithmetic "1" =
      .ok ⟨.arithmetic, .leaf (.number ⟨false, 2 ^ 52, 1022, by decide, by decide,
        .inr (Nat.le_refl _)⟩), "1"⟩ := by decide +kernel
  have hfirst : Charset.ascii.firstOutside? (tableOf .ascii ⟨.arithmetic, .leaf (.number ⟨false,
      2 ^ 52, 1022, by decide, by decide, .inr (Nat.le_refl _)⟩), "1"⟩).text = some (8, 'ż') := by
    rw [Charset.firstOutside?, Table.toList_text]
    decide +kernel
  have hsettings : Settings.read [] none = .ok .default := by decide +kernel
  have hlevel : LogLevel.ofName? Settings.default.logLevel = some .info := by decide +kernel
  refine ⟨_, hread, by decide, ?_⟩
  rw [run_callOn hsettings hlevel (ne_markerText_of_read hread)]
  exact ((deliver_reportText_summary hread (by decide) .info .ascii).2 _ _ hfirst).2

end CommandLine

end ReversePolish
