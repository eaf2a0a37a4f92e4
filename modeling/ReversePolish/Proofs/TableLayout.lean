import Mathlib.Data.List.DropRight
import ReversePolish.Table

set_option autoImplicit false

/-! # The layout of tables

Breaking a line moves its characters and leaves none out, unless one of its words alone is too
long: such a word is cut, and only there does an ellipsis come in. So a table shows the characters
of its title and of its cells, the lines around them, and an ellipsis exactly where it has a word
that is too long for its column. A table begins with the first word of its title. -/

namespace ReversePolish

namespace Table

variable {c : Char} {width : Nat} {line : List Char}

/-! ## Definitions -/

/-- The word, without the spaces behind it, needs more than the width. -/
def IsLong (width : Nat) (word : List Char) : Prop :=
  width < (dropTrailing word).length

instance (width : Nat) (word : List Char) : Decidable (IsLong width word) :=
  inferInstanceAs (Decidable (_ < _))

/-- A word of some value is too long for the column of values. -/
def HasLongWord (t : Table) : Prop :=
  ∃ row ∈ t.rows, ∃ l ∈ valueLines row.2, ∃ w ∈ splitWords [] false (expandTabs 0 l),
    IsLong t.valueWidth w

instance (t : Table) : Decidable t.HasLongWord :=
  inferInstanceAs (Decidable (∃ row ∈ t.rows, ∃ l ∈ valueLines row.2,
    ∃ w ∈ splitWords [] false (expandTabs 0 l), IsLong t.valueWidth w))

/-- The characters that fill and frame a table. -/
def frameChars : List Char :=
  [' ', '|', '+', '-', '\n']

/-! ## Spaces at the end -/

theorem dropTrailing_isPrefix (line : List Char) : dropTrailing line <+: line :=
  List.rdropWhile_prefix _ _

theorem length_dropTrailing_le (line : List Char) : (dropTrailing line).length ≤ line.length :=
  (dropTrailing_isPrefix line).length_le

theorem mem_dropTrailing_iff (hc : c ≠ ' ') : c ∈ dropTrailing line ↔ c ∈ line := by
  refine ⟨fun h => (dropTrailing_isPrefix line).sublist.mem h, fun h => ?_⟩
  rw [dropTrailing, List.mem_reverse]
  rw [← List.mem_reverse] at h
  generalize line.reverse = cs at h
  induction cs with
  | nil => cases h
  | cons a cs ih =>
    by_cases ha : a = ' '
    · subst ha
      rw [List.dropWhile_cons_of_pos (by rfl)]
      exact ih ((List.mem_cons.1 h).resolve_left hc)
    · rwa [List.dropWhile_cons_of_neg (by simpa using ha)]

theorem dropTrailing_append (a b : List Char) :
    dropTrailing (a ++ b) =
      if (dropTrailing b).isEmpty then dropTrailing a else a ++ dropTrailing b := by
  simp only [dropTrailing, List.reverse_append, List.dropWhile_append, List.isEmpty_reverse]
  split
  · rfl
  · rw [List.reverse_append, List.reverse_reverse]

theorem length_dropTrailing_append_le (a b : List Char) :
    (dropTrailing (a ++ b)).length ≤ a.length + (dropTrailing b).length := by
  rw [dropTrailing_append]
  split
  · exact Nat.le_add_right_of_le (length_dropTrailing_le a)
  · rw [List.length_append]

/-! ## Words and lines -/

theorem flatten_splitWords (word : List Char) (closed : Bool) (cs : List Char) :
    (splitWords word closed cs).flatten = word.reverse ++ cs := by
  induction cs generalizing word closed with
  | nil =>
    unfold splitWords
    split
    · next h => rw [List.isEmpty_iff.1 h]; rfl
    · simp
  | cons c cs ih =>
    unfold splitWords
    split
    · rw [ih]; simp
    · split
      · rw [List.flatten_cons, ih]; simp
      · rw [ih]; simp

theorem flatten_fill (line : List Char) (used : Nat) (ws : List (List Char)) :
    (fill width line used ws).flatten = line ++ ws.flatten := by
  induction ws generalizing line used with
  | nil => rfl
  | cons w ws ih =>
    unfold fill
    split
    · rw [ih]; simp
    · split
      · next h => rw [ih, List.isEmpty_iff.1 h]; rfl
      · rw [List.flatten_cons, ih]; rfl

/-- The first line begins with what is on it already. -/
theorem exists_fill_eq_cons (line : List Char) (used : Nat) (ws : List (List Char)) :
    ∃ rest lines, fill width line used ws = (line ++ rest) :: lines := by
  induction ws generalizing line used with
  | nil => exact ⟨[], [], by rw [fill, List.append_nil]⟩
  | cons w ws ih =>
    unfold fill
    split
    · obtain ⟨rest, lines, h⟩ := ih (line ++ w) (used + w.length)
      exact ⟨w ++ rest, lines, by rw [h, List.append_assoc]⟩
    · split
      · next hempty =>
        obtain ⟨rest, lines, h⟩ := ih w w.length
        exact ⟨w ++ rest, lines, by rw [h, List.isEmpty_iff.1 hempty]; rfl⟩
      · exact ⟨[], _, by rw [List.append_nil]⟩

/-- Filling puts words together only where they fit, so a line is too long only where one of the
    words is. -/
theorem exists_isLong_fill_iff (line : List Char) (ws : List (List Char)) :
    (∃ l ∈ fill width line line.length ws, IsLong width l) ↔
      IsLong width line ∨ ∃ w ∈ ws, IsLong width w := by
  induction ws generalizing line with
  | nil => simp [fill]
  | cons w ws ih =>
    unfold fill
    split
    · next hfits =>
      have hline : ¬ IsLong width line :=
        Nat.not_lt.2 ((length_dropTrailing_le line).trans (Nat.le_of_add_right_le hfits))
      have hword : ¬ IsLong width w := Nat.not_lt.2 (Nat.le_of_add_left_le hfits)
      have hboth : ¬ IsLong width (line ++ w) :=
        Nat.not_lt.2 ((length_dropTrailing_append_le line w).trans hfits)
      rw [← List.length_append, ih]
      simp [hline, hword, hboth]
    · split
      · next hempty =>
        have hline : ¬ IsLong width line := by
          rw [List.isEmpty_iff.1 hempty]
          exact Nat.not_lt_zero _
        rw [ih]
        simp [hline]
      · rw [List.exists_mem_cons_iff, ih]
        simp

/-! ## Cutting -/

theorem lt_length_cropSpaces_iff : width < (cropSpaces width line).length ↔ IsLong width line := by
  have hle := length_dropTrailing_le line
  rw [cropSpaces, IsLong, List.length_take]
  omega

theorem mem_cut_cropSpaces {c : Char} (h : c ∈ cut width (cropSpaces width line)) :
    c ∈ line ∨ c = '…' := by
  unfold cut at h
  split at h
  · rcases List.mem_append.1 h with h | h
    · exact .inl (List.mem_of_mem_take (List.mem_of_mem_take h))
    · exact .inr (List.mem_singleton.1 h)
  · exact .inl (List.mem_of_mem_take h)

theorem ellipsis_mem_cut_cropSpaces_iff (h : '…' ∉ line) :
    '…' ∈ cut width (cropSpaces width line) ↔ IsLong width line := by
  rw [← lt_length_cropSpaces_iff, cut]
  split
  · next hlong => exact iff_of_true (List.mem_append_right _ List.mem_cons_self) hlong
  · next hshort => exact iff_of_false (fun hmem => h (List.mem_of_mem_take hmem)) hshort

/-! ## Breaking -/

theorem mem_of_mem_fill {l : List Char} (hl : l ∈ fill width [] 0 (splitWords [] false line))
    (hc : c ∈ l) : c ∈ line := by
  have hflat : c ∈ (fill width [] 0 (splitWords [] false line)).flatten :=
    List.mem_flatten.2 ⟨l, hl, hc⟩
  rwa [flatten_fill, flatten_splitWords] at hflat

theorem mem_of_mem_breakLine {l : List Char} (hl : l ∈ breakLine width line) (hc : c ∈ l) :
    c ∈ line ∨ c = '…' := by
  obtain ⟨m, hm, rfl⟩ := List.mem_map.1 hl
  exact (mem_cut_cropSpaces hc).imp_left (mem_of_mem_fill hm)

theorem ellipsis_mem_breakLine_iff (h : '…' ∉ line) :
    (∃ l ∈ breakLine width line, '…' ∈ l) ↔ ∃ w ∈ splitWords [] false line, IsLong width w := by
  have hnone : ¬ IsLong width [] := Nat.not_lt_zero _
  have hfill : (∃ l ∈ fill width [] 0 (splitWords [] false line), IsLong width l) ↔
      IsLong width [] ∨ ∃ w ∈ splitWords [] false line, IsLong width w :=
    exists_isLong_fill_iff [] (splitWords [] false line)
  rw [or_iff_right hnone] at hfill
  simp only [← hfill, breakLine, List.mem_map, exists_exists_and_eq_and]
  refine exists_congr fun l => and_congr_right fun hl => ?_
  exact ellipsis_mem_cut_cropSpaces_iff fun hmem => h (mem_of_mem_fill hl hmem)

/-- The first line that comes of breaking begins with the first word. -/
theorem exists_breakLine_eq_cons {w : List Char} {ws : List (List Char)}
    (hwords : splitWords [] false line = w :: ws) (hfits : (dropTrailing w).length < width) :
    ∃ rest lines, breakLine width line = (dropTrailing w ++ rest) :: lines := by
  have hstart : fill width [] 0 (w :: ws) = fill width w w.length ws := by
    have hle : 0 + (dropTrailing w).length ≤ width := by omega
    rw [fill, if_pos hle, List.nil_append, Nat.zero_add]
  obtain ⟨rest, lines, hfill⟩ : ∃ rest lines, fill width w w.length ws = (w ++ rest) :: lines :=
    exists_fill_eq_cons w w.length ws
  rw [breakLine, hwords, hstart, hfill, List.map_cons]
  have hcrop : dropTrailing w <+: cropSpaces width (w ++ rest) := by
    refine List.prefix_take_iff.2 ⟨(dropTrailing_isPrefix w).trans (List.prefix_append w rest), ?_⟩
    exact hfits.le.trans (Nat.le_max_right _ _)
  have hcut : dropTrailing w <+: cut width (cropSpaces width (w ++ rest)) := by
    unfold cut
    split
    · exact (List.prefix_take_iff.2 ⟨hcrop, by omega⟩).trans (List.prefix_append _ _)
    · exact hcrop
  obtain ⟨more, hmore⟩ := hcut
  exact ⟨more, _, by rw [hmore]⟩

/-! ## Cells -/

theorem mem_expandTabs (hc : c ≠ ' ') {column : Nat} (h : c ∈ expandTabs column line) :
    c ∈ line := by
  induction line generalizing column with
  | nil => cases h
  | cons a line ih =>
    unfold expandTabs at h
    split at h
    · rcases List.mem_append.1 h with h | h
      · exact absurd (List.eq_of_mem_replicate h) hc
      · exact List.mem_cons_of_mem _ (ih h)
    · rcases List.mem_cons.1 h with rfl | h
      · exact List.mem_cons_self
      · exact List.mem_cons_of_mem _ (ih h)

theorem mem_of_mem_splitLines {cs l : List Char} (hl : l ∈ splitLines cs) (hc : c ∈ l) :
    c ∈ cs := by
  induction cs generalizing l with
  | nil =>
    rw [List.mem_singleton.1 hl] at hc
    cases hc
  | cons a cs ih =>
    unfold splitLines at hl
    split at hl
    · rcases List.mem_cons.1 hl with rfl | hl
      · cases hc
      · exact List.mem_cons_of_mem _ (ih hl hc)
    · split at hl
      · next line rest hlines =>
        rw [hlines] at ih
        rcases List.mem_cons.1 hl with rfl | hl
        · rcases List.mem_cons.1 hc with rfl | hc
          · exact List.mem_cons_self
          · exact List.mem_cons_of_mem _ (ih List.mem_cons_self hc)
        · exact List.mem_cons_of_mem _ (ih (List.mem_cons_of_mem _ hl) hc)
      · rw [List.mem_singleton.1 hl] at hc
        rw [List.mem_singleton.1 hc]
        exact List.mem_cons_self

/-- A line of a value has characters of the value, and spaces in the place of tabs. -/
theorem mem_value_of_mem_expandTabs {value : String} {l : List Char} (hc : c ≠ ' ')
    (hl : l ∈ valueLines value) (h : c ∈ expandTabs 0 l) : c ∈ value.toList :=
  List.mem_of_mem_filter (mem_of_mem_splitLines hl (mem_expandTabs hc h))

/-! ## The whole table -/

section Whole

variable {t : Table}

theorem mem_pad_iff (hc : c ≠ ' ') : c ∈ pad width line ↔ c ∈ line := by
  rw [pad, List.mem_append, or_iff_left fun h => hc (List.eq_of_mem_replicate h)]

theorem mem_rowLine_iff (hc : c ∉ frameChars) {name line : List Char} :
    c ∈ t.rowLine name line ↔ c ∈ name ∨ c ∈ line := by
  simp only [frameChars, List.mem_cons, List.not_mem_nil, or_false, not_or] at hc
  simp only [rowLine, List.mem_cons, List.mem_append, List.not_mem_nil, or_false, mem_pad_iff hc.1,
    hc, false_or]

theorem exists_mem_flatMap_iff {α β : Type} {as : List α} {f : α → List β} {p : β → Prop} :
    (∃ b ∈ as.flatMap f, p b) ↔ ∃ a ∈ as, ∃ b ∈ f a, p b := by
  simp only [List.mem_flatMap]
  constructor
  · rintro ⟨b, ⟨a, ha, hb⟩, hp⟩
    exact ⟨a, ha, b, hb, hp⟩
  · rintro ⟨a, ha, b, hb, hp⟩
    exact ⟨b, ⟨a, ha, hb⟩, hp⟩

theorem mem_rowLines_iff (hc : c ∉ frameChars) {row : String × String} :
    (∃ l ∈ t.rowLines row, c ∈ l) ↔
      c ∈ row.1.toList ∨
        ∃ l ∈ valueLines row.2, ∃ b ∈ breakLine t.valueWidth (expandTabs 0 l), c ∈ b := by
  rw [← exists_mem_flatMap_iff, rowLines]
  cases (valueLines row.2).flatMap fun l => breakLine t.valueWidth (expandTabs 0 l) with
  | nil => simp [mem_rowLine_iff hc]
  | cons first rest => simp [mem_rowLine_iff hc, or_assoc]

theorem mem_centre_iff (hc : c ≠ ' ') : c ∈ centre width line ↔ c ∈ line := by
  rw [centre, mem_pad_iff hc, List.mem_append,
    or_iff_right fun h => hc (List.eq_of_mem_replicate h), mem_dropTrailing_iff hc]

theorem toList_text (t : Table) : t.text.toList = t.lines.flatMap fun l => l ++ ['\n'] :=
  String.toList_ofList

theorem mem_border (h : c ∈ t.border) : c ∈ frameChars := by
  simp only [border, List.mem_cons, List.mem_append, List.mem_replicate, List.not_mem_nil,
    or_false] at h
  rcases h with (rfl | ⟨-, rfl⟩) | rfl <;> decide

/-- Inside the frame a table shows the title and the cells, as they are broken. -/
theorem mem_text_iff (hc : c ∉ frameChars) :
    c ∈ t.text.toList ↔
      (∃ b ∈ breakLine t.width t.title.toList, c ∈ b) ∨
        ∃ row ∈ t.rows, c ∈ row.1.toList ∨
          ∃ l ∈ valueLines row.2, ∃ b ∈ breakLine t.valueWidth (expandTabs 0 l), c ∈ b := by
  have hbreak : c ∉ ['\n'] := fun h => hc (List.mem_singleton.1 h ▸ by decide)
  have hborder : c ∉ t.border := fun h => hc (mem_border h)
  have hspace : c ≠ ' ' := fun h => hc (h ▸ List.mem_cons_self)
  have hlines : c ∈ t.text.toList ↔ ∃ l ∈ t.lines, c ∈ l := by
    rw [toList_text, List.mem_flatMap]
    simp only [List.mem_append, or_iff_left hbreak]
  have htitle : (∃ l ∈ t.titleLines, c ∈ l) ↔ ∃ b ∈ breakLine t.width t.title.toList, c ∈ b := by
    simp only [titleLines, List.mem_map, exists_exists_and_eq_and, mem_centre_iff hspace]
  rw [hlines, lines]
  simp only [List.mem_append, List.mem_cons, List.not_mem_nil, or_false, or_and_right, exists_or,
    exists_eq_left, hborder, false_or, htitle, exists_mem_flatMap_iff, mem_rowLines_iff hc]

/-- What a table shows inside the frame is an ellipsis or from the title and the cells. -/
theorem mem_of_mem_text (hc : c ∉ frameChars) (h : c ∈ t.text.toList) :
    c = '…' ∨ c ∈ t.title.toList ∨ ∃ row ∈ t.rows, c ∈ row.1.toList ∨ c ∈ row.2.toList := by
  have hspace : c ≠ ' ' := fun h => hc (h ▸ List.mem_cons_self)
  rcases (mem_text_iff hc).1 h with ⟨b, hb, hcb⟩ | ⟨row, hrow, hname | ⟨l, hl, b, hb, hcb⟩⟩
  · rcases mem_of_mem_breakLine hb hcb with htitle | hellipsis
    · exact .inr (.inl htitle)
    · exact .inl hellipsis
  · exact .inr (.inr ⟨row, hrow, .inl hname⟩)
  · rcases mem_of_mem_breakLine hb hcb with hline | hellipsis
    · exact .inr (.inr ⟨row, hrow, .inr (mem_value_of_mem_expandTabs hspace hl hline)⟩)
    · exact .inl hellipsis

/-- An ellipsis that is not from the title or the cells stands for the rest of a word that is too
    long. -/
theorem ellipsis_mem_text_iff (htitle : '…' ∉ t.title.toList)
    (hcells : ∀ row ∈ t.rows, '…' ∉ row.1.toList ∧ '…' ∉ row.2.toList) :
    '…' ∈ t.text.toList ↔
      (∃ w ∈ splitWords [] false t.title.toList, IsLong t.width w) ∨ t.HasLongWord := by
  rw [mem_text_iff (by decide), ellipsis_mem_breakLine_iff htitle, HasLongWord]
  refine or_congr Iff.rfl (exists_congr fun row => and_congr_right fun hrow => ?_)
  obtain ⟨hname, hvalue⟩ := hcells row hrow
  rw [or_iff_right hname]
  refine exists_congr fun l => and_congr_right fun hl => ?_
  exact ellipsis_mem_breakLine_iff fun hmem =>
    hvalue (mem_value_of_mem_expandTabs (by decide) hl hmem)

/-- A table begins with spaces and the first word of the title. -/
theorem exists_text_eq {w : List Char} {ws : List (List Char)}
    (hwords : splitWords [] false t.title.toList = w :: ws)
    (hfits : (dropTrailing w).length < t.width) :
    ∃ n rest, t.text.toList = List.replicate n ' ' ++ (dropTrailing w ++ rest) := by
  obtain ⟨more, lines, hbroken⟩ := exists_breakLine_eq_cons hwords hfits
  have hkept : dropTrailing w <+: dropTrailing (dropTrailing w ++ more) := by
    rw [dropTrailing_append]
    split
    · have hsame : dropTrailing (dropTrailing w) = dropTrailing w := List.rdropWhile_idempotent _ w
      exact ⟨[], by rw [List.append_nil, hsame]⟩
    · exact List.prefix_append _ _
  obtain ⟨rest, hrest⟩ := hkept
  rw [toList_text, Table.lines, titleLines, hbroken, List.map_cons, centre, pad,
    ← hrest]
  simp only [List.cons_append, List.flatMap_cons, List.append_assoc]
  exact ⟨_, _, rfl⟩

end Whole

end Table

end ReversePolish
