import Mathlib.Data.List.Basic
import ReversePolish.Decimal
import ReversePolish.Text.Charset
import ReversePolish.Text.Quoted

set_option autoImplicit false

/-! # Quoted text on a channel

Text between quotes is read back one character at a time: behind a backslash stand a letter for a
control character, a code point in a fixed number of digits, or the character itself, and without
a backslash every character stands for itself. A channel that spells out characters by their code
points writes in the same way, and the backslash of the text itself is doubled before, so what
arrives is read back too. The first quote that is not behind a backslash ends the text, whatever
follows it. -/

namespace ReversePolish

attribute [local instance] corePow

/-! ## Hexadecimal numbers -/

/-- The value of a hexadecimal digit. -/
def hexDigitValue (c : Char) : Nat :=
  if c.isDigit then c.toNat - 48 else c.toNat - 87

/-- The number that hexadecimal digits denote. -/
def hexNumber (cs : List Char) : Nat :=
  cs.foldl (fun n c => 16 * n + hexDigitValue c) 0

theorem hexDigitValue_digitChar : ∀ d < 16, hexDigitValue d.digitChar = d := by
  decide

theorem hexNumber_append_singleton (cs : List Char) (c : Char) :
    hexNumber (cs ++ [c]) = 16 * hexNumber cs + hexDigitValue c := by
  rw [hexNumber, List.foldl_append]
  rfl

theorem hexNumber_toDigits (n : Nat) : hexNumber (Nat.toDigits 16 n) = n := by
  induction n using Nat.strongRecOn with
  | ind n ih =>
    rw [Nat.toDigits_eq_if (by decide)]
    split
    · next h => exact (Nat.zero_add _).trans (hexDigitValue_digitChar n h)
    · next h =>
      have hdigit := hexDigitValue_digitChar (n % 16) (Nat.mod_lt n (by decide))
      rw [hexNumber_append_singleton, ih (n / 16) (by omega), hdigit]
      omega

theorem hexNumber_zeros_append (k : Nat) (cs : List Char) :
    hexNumber (List.replicate k '0' ++ cs) = hexNumber cs := by
  induction k with
  | zero => rfl
  | succ k ih => exact ih

theorem hexNumber_hexDigits (width n : Nat) : hexNumber (hexDigits width n) = n := by
  rw [hexDigits, hexNumber_zeros_append, hexNumber_toDigits]

theorem length_hexDigits {width n : Nat} (hwidth : 0 < width) (h : n < 16 ^ width) :
    (hexDigits width n).length = width := by
  have hle : (Nat.toDigits 16 n).length ≤ width :=
    (Nat.length_toDigits_le_iff (by decide) hwidth).2 h
  rw [hexDigits, List.length_append, List.length_replicate]
  omega

theorem exists_digit_of_mem_toDigits {n : Nat} {c : Char} (h : c ∈ Nat.toDigits 16 n) :
    ∃ d < 16, c = d.digitChar := by
  induction n using Nat.strongRecOn with
  | ind n ih =>
    rw [Nat.toDigits_eq_if (by decide)] at h
    split at h
    · next hn => exact ⟨n, hn, List.mem_singleton.1 h⟩
    · rcases List.mem_append.1 h with h | h
      · exact ih (n / 16) (by omega) h
      · exact ⟨n % 16, Nat.mod_lt n (by decide), List.mem_singleton.1 h⟩

theorem toNat_lt_of_mem_hexDigits {width n : Nat} {c : Char} (h : c ∈ hexDigits width n) :
    c.toNat < 0x80 := by
  have hdigits : ∀ d < 16, d.digitChar.toNat < 0x80 := by decide
  rcases List.mem_append.1 h with h | h
  · rw [List.eq_of_mem_replicate h]
    decide
  · obtain ⟨d, hd, rfl⟩ := exists_digit_of_mem_toDigits h
    exact hdigits d hd

/-! ## Channels -/

namespace Charset

/-- Characters as they are spelled out. -/
def spell (s : Charset) (cs : List Char) : List Char :=
  cs.flatMap fun c => if s.has c then [c] else codePointEscape c

variable {s : Charset}

theorem toList_spellOut (text : String) : (s.spellOut text).toList = s.spell text.toList :=
  String.toList_ofList

theorem spell_append (cs ds : List Char) : s.spell (cs ++ ds) = s.spell cs ++ s.spell ds :=
  List.flatMap_append

theorem spell_of_ascii {cs : List Char} (h : ∀ c ∈ cs, c.toNat < 0x80) : s.spell cs = cs := by
  induction cs with
  | nil => rfl
  | cons c cs ih =>
    obtain ⟨hc, hcs⟩ := List.forall_mem_cons.1 h
    rw [spell, List.flatMap_cons, if_pos (s.has_of_ascii hc)]
    exact congrArg (c :: ·) (ih hcs)

theorem spell_utf8 (cs : List Char) : utf8.spell cs = cs :=
  List.flatMap_singleton' cs

end Charset

theorem toNat_lt_of_mem_codePointEscape {c e : Char} (h : e ∈ codePointEscape c) :
    e.toNat < 0x80 := by
  have hmark : ∀ m : Char, m.toNat < 0x80 → ∀ width n,
      e ∈ '\\' :: m :: hexDigits width n → e.toNat < 0x80 := by
    intro m hm width n he
    rcases List.mem_cons.1 he with rfl | he
    · decide
    · rcases List.mem_cons.1 he with rfl | he
      · exact hm
      · exact toNat_lt_of_mem_hexDigits he
  unfold codePointEscape at h
  split at h
  · exact hmark 'x' (by decide) _ _ h
  · split at h
    · exact hmark 'u' (by decide) _ _ h
    · exact hmark 'U' (by decide) _ _ h

/-! ## One character -/

/-- The character of a code point in so many digits, and what follows them. -/
def readCodePoint (width : Nat) (cs : List Char) : Option (Char × List Char) :=
  some (Char.ofNat (hexNumber (cs.take width)), cs.drop width)

/-- The first character of text between quotes, and what follows it. -/
def readQuotedChar : List Char → Option (Char × List Char)
  | [] => none
  | '\\' :: 'n' :: cs => some ('\n', cs)
  | '\\' :: 'r' :: cs => some ('\r', cs)
  | '\\' :: 't' :: cs => some ('\t', cs)
  | '\\' :: 'x' :: cs => readCodePoint 2 cs
  | '\\' :: 'u' :: cs => readCodePoint 4 cs
  | '\\' :: 'U' :: cs => readCodePoint 8 cs
  | '\\' :: c :: cs => some (c, cs)
  | c :: cs => some (c, cs)

theorem readCodePoint_hexDigits {width : Nat} {c : Char} (hwidth : 0 < width)
    (h : c.toNat < 16 ^ width) (cs : List Char) :
    readCodePoint width (hexDigits width c.toNat ++ cs) = some (c, cs) := by
  have hlen := length_hexDigits hwidth h
  rw [readCodePoint, List.take_left' hlen, List.drop_left' hlen, hexNumber_hexDigits,
    Char.ofNat_toNat]

theorem readQuotedChar_codePointEscape (c : Char) (cs : List Char) :
    readQuotedChar (codePointEscape c ++ cs) = some (c, cs) := by
  unfold codePointEscape
  split
  · next h => exact readCodePoint_hexDigits (by decide) h cs
  · split
    · next h => exact readCodePoint_hexDigits (by decide) h cs
    · exact readCodePoint_hexDigits (by decide) c.val.toNat_lt cs

theorem readQuotedChar_of_ne {c : Char} (h : c ≠ '\\') (cs : List Char) :
    readQuotedChar (c :: cs) = some (c, cs) := by
  simp [readQuotedChar, h]

/-- What a character between quotes becomes on a channel. -/
inductive Spelling (q c : Char) : List Char → Prop where
  /-- The backslash and the quote stand behind a backslash. -/
  | doubled (marked : c = '\\' ∨ c = q) : Spelling q c ['\\', c]
  | lettered {letter : Char}
      (named : (letter, c) ∈ [('n', '\n'), ('r', '\r'), ('t', '\t')]) :
      Spelling q c ['\\', letter]
  | plain (ne_backslash : c ≠ '\\') (ne_quote : c ≠ q) : Spelling q c [c]
  | escaped (ne_quote : c ≠ q) : Spelling q c (codePointEscape c)

theorem spelling_spell (s : Charset) {q : Char} (hq : q.toNat < 0x80) (c : Char) :
    Spelling q c (s.spell (quotedChar q c)) := by
  have hpair : ∀ a : Char, a.toNat < 0x80 → s.spell ['\\', a] = ['\\', a] := by
    intro a ha
    refine Charset.spell_of_ascii fun e he => ?_
    rcases List.mem_pair.1 he with rfl | rfl
    · decide
    · exact ha
  have hescape : s.spell (codePointEscape c) = codePointEscape c :=
    Charset.spell_of_ascii fun e he => toNat_lt_of_mem_codePointEscape he
  unfold quotedChar
  split
  · next h =>
    rw [Bool.or_eq_true, beq_iff_eq, beq_iff_eq] at h
    have hc : c.toNat < 0x80 := by
      rcases h with rfl | rfl
      · decide
      · exact hq
    rw [hpair c hc]
    exact .doubled h
  · next h =>
    simp only [Bool.or_eq_true, beq_iff_eq, not_or] at h
    split
    · next hc =>
      rw [hpair 'n' (by decide), eq_of_beq hc]
      exact .lettered (by simp)
    · split
      · next hc =>
        rw [hpair 'r' (by decide), eq_of_beq hc]
        exact .lettered (by simp)
      · split
        · next hc =>
          rw [hpair 't' (by decide), eq_of_beq hc]
          exact .lettered (by simp)
        · split
          · -- a printable character that the channel cannot carry is escaped all the same
            rw [Charset.spell, List.flatMap_singleton]
            split
            · exact .plain h.1 h.2
            · exact .escaped h.2
          · rw [hescape]
            exact .escaped h.2

/-- A character between quotes is read back. -/
theorem readQuotedChar_of_spelling {q c : Char} {cs : List Char} (h : Spelling q c cs)
    (hq : q = '\'' ∨ q = '"') (rest : List Char) :
    readQuotedChar (cs ++ rest) = some (c, rest) := by
  cases h with
  | doubled marked =>
    rcases marked with rfl | rfl
    · rfl
    · rcases hq with rfl | rfl <;> rfl
  | lettered named =>
    simp only [List.mem_cons, Prod.mk.injEq, List.not_mem_nil, or_false] at named
    rcases named with ⟨rfl, rfl⟩ | ⟨rfl, rfl⟩ | ⟨rfl, rfl⟩ <;> rfl
  | plain ne_backslash => exact readQuotedChar_of_ne ne_backslash rest
  | escaped => exact readQuotedChar_codePointEscape c rest

/-- No character between quotes starts like the quote that ends the text. -/
theorem head?_of_spelling {q c : Char} {cs : List Char} (h : Spelling q c cs)
    (hq : q = '\'' ∨ q = '"') (rest : List Char) : (cs ++ rest).head? ≠ some q := by
  have hbackslash : '\\' ≠ q := by rcases hq with rfl | rfl <;> decide
  have hhead : ∃ x xs, cs = x :: xs ∧ x ≠ q := by
    cases h with
    | doubled | lettered => exact ⟨'\\', _, rfl, hbackslash⟩
    | plain _ ne_quote => exact ⟨c, [], rfl, ne_quote⟩
    | escaped =>
      unfold codePointEscape
      split
      · exact ⟨'\\', _, rfl, hbackslash⟩
      · split <;> exact ⟨'\\', _, rfl, hbackslash⟩
  obtain ⟨x, xs, rfl, hx⟩ := hhead
  intro hsome
  exact hx (Option.some.inj hsome)

/-! ## Whole texts -/

variable {s : Charset}

theorem toNat_lt_of_isQuote {q : Char} (hq : q = '\'' ∨ q = '"') : q.toNat < 0x80 := by
  rcases hq with rfl | rfl <;> decide

theorem spell_cons_of_ascii {c : Char} (h : c.toNat < 0x80) (cs : List Char) :
    s.spell (c :: cs) = c :: s.spell cs := by
  rw [Charset.spell, List.flatMap_cons, if_pos (s.has_of_ascii h)]
  rfl

/-- The characters up to the quote that ends the text are read back, and what follows the quote
    is left. -/
theorem spell_flatMap_append_inj {q : Char} (hq : q = '\'' ∨ q = '"')
    {cs cs' rest rest' : List Char}
    (h : s.spell (cs.flatMap (quotedChar q)) ++ q :: rest =
      s.spell (cs'.flatMap (quotedChar q)) ++ q :: rest') : cs = cs' ∧ rest = rest' := by
  have hspelling := spelling_spell s (toNat_lt_of_isQuote hq)
  have hcons : ∀ c ds tail, s.spell ((c :: ds).flatMap (quotedChar q)) ++ tail =
      s.spell (quotedChar q c) ++ (s.spell (ds.flatMap (quotedChar q)) ++ tail) := by
    intro c ds tail
    rw [List.flatMap_cons, Charset.spell_append, List.append_assoc]
  induction cs generalizing cs' with
  | nil =>
    cases cs' with
    | nil => exact ⟨rfl, (List.cons.inj h).2⟩
    | cons c' cs' =>
      rw [hcons] at h
      exact absurd (congrArg List.head? h).symm (head?_of_spelling (hspelling c') hq _)
  | cons c cs ih =>
    rw [hcons] at h
    cases cs' with
    | nil => exact absurd (congrArg List.head? h) (head?_of_spelling (hspelling c) hq _)
    | cons c' cs' =>
      rw [hcons] at h
      have hread := congrArg readQuotedChar h
      rw [readQuotedChar_of_spelling (hspelling c) hq,
        readQuotedChar_of_spelling (hspelling c') hq] at hread
      obtain ⟨rfl, hrest⟩ := Prod.mk.inj (Option.some.inj hread)
      obtain ⟨rfl, rfl⟩ := ih hrest
      exact ⟨rfl, rfl⟩

theorem quoteFor_eq (cs : List Char) : quoteFor cs = '\'' ∨ quoteFor cs = '"' := by
  unfold quoteFor
  split
  · exact .inr rfl
  · exact .inl rfl

theorem spell_quoted (t : String) :
    s.spell (quoted t).toList =
      quoteFor t.toList :: (s.spell (t.toList.flatMap (quotedChar (quoteFor t.toList))) ++
        [quoteFor t.toList]) := by
  have hq := toNat_lt_of_isQuote (quoteFor_eq t.toList)
  rw [quoted, String.toList_ofList, List.cons_append, spell_cons_of_ascii hq,
    Charset.spell_append, spell_cons_of_ascii hq]
  rfl

/-- Quoted text on a channel tells the text and what follows it. -/
theorem spell_quoted_append_inj {t t' : String} {rest rest' : List Char}
    (h : s.spell (quoted t).toList ++ rest = s.spell (quoted t').toList ++ rest') :
    t = t' ∧ rest = rest' := by
  rw [spell_quoted, spell_quoted, List.cons_append, List.cons_append, List.append_assoc,
    List.append_assoc] at h
  obtain ⟨hquote, h⟩ := List.cons.inj h
  rw [← hquote] at h
  obtain ⟨htext, rfl⟩ := spell_flatMap_append_inj (quoteFor_eq t.toList) h
  exact ⟨String.toList_injective htext, rfl⟩

end ReversePolish
