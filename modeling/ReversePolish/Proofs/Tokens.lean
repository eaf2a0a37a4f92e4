import ReversePolish.Token

set_option autoImplicit false

/-! # Cutting a text into tokens

A text has no tokens exactly when it is blank throughout. In the other direction, tokens that are
joined by single spaces are found again: a run of characters that are not blank is one token, and
the blank behind it starts the rest of the text. -/

namespace ReversePolish

theorem tokens_eq_nil_iff {cs : List Char} : tokens cs = [] ↔ ∀ c ∈ cs, isBlank c = true := by
  induction cs with
  | nil => simp [tokens]
  | cons c cs ih =>
    unfold tokens
    rw [List.forall_mem_cons]
    split
    · next hc => rw [ih, and_iff_right hc]
    · next hc =>
      -- a character that is not blank is in some token
      rw [iff_false_right fun h => hc h.1]
      split
      · simp
      · split
        · simp
        · split <;> simp

theorem tokenize_eq_nil_iff {text : String} :
    tokenize text = [] ↔ ∀ c ∈ text.toList, isBlank c = true := by
  rw [tokenize, List.map_eq_nil_iff, tokens_eq_nil_iff]

theorem tokens_of_blank {b : Char} (hb : isBlank b = true) (cs : List Char) :
    tokens (b :: cs) = tokens cs := by
  conv => lhs; unfold tokens
  exact if_pos hb

/-! ## Joined tokens -/

theorem tokens_of_not_blank {t : List Char} (ht : t ≠ []) (h : ∀ c ∈ t, isBlank c = false) :
    tokens t = [t] := by
  induction t with
  | nil => exact absurd rfl ht
  | cons c t ih =>
    obtain ⟨hc, ht'⟩ := List.forall_mem_cons.1 h
    cases t with
    | nil => simp [tokens, hc]
    | cons a t =>
      have ha : isBlank a = false := ht' a List.mem_cons_self
      rw [tokens, ih (by simp) ht']
      simp [hc, ha]

theorem tokenize_of_not_blank {t : String} (ht : t.toList ≠ [])
    (h : ∀ c ∈ t.toList, isBlank c = false) : tokenize t = [t] := by
  rw [tokenize, tokens_of_not_blank ht h, List.map_singleton, String.ofList_toList]

theorem tokens_append_blank {t : List Char} (ht : t ≠ []) (h : ∀ c ∈ t, isBlank c = false)
    {b : Char} (hb : isBlank b = true) (cs : List Char) :
    tokens (t ++ b :: cs) = t :: tokens cs := by
  induction t with
  | nil => exact absurd rfl ht
  | cons c t ih =>
    obtain ⟨hc, ht'⟩ := List.forall_mem_cons.1 h
    cases t with
    | nil =>
      rw [List.singleton_append, tokens, tokens_of_blank hb]
      simp [hc, hb]
    | cons a t =>
      have ha : isBlank a = false := ht' a List.mem_cons_self
      rw [List.cons_append, List.cons_append, tokens, ← List.cons_append, ih (by simp) ht']
      simp [hc, ha]

theorem tokens_intercalate {ts : List (List Char)}
    (h : ∀ t ∈ ts, t ≠ [] ∧ ∀ c ∈ t, isBlank c = false) :
    tokens ([' '].intercalate ts) = ts := by
  induction ts with
  | nil => rfl
  | cons t ts ih =>
    obtain ⟨⟨hne, ht⟩, hts⟩ := List.forall_mem_cons.1 h
    cases ts with
    | nil => rw [List.intercalate_singleton, tokens_of_not_blank hne ht]
    | cons u us =>
      rw [List.intercalate_cons_cons, List.append_assoc, List.singleton_append,
        tokens_append_blank hne ht (by decide), ih hts]

theorem map_toList_tokenize (s : String) : (tokenize s).map String.toList = tokens s.toList := by
  simp [tokenize, Function.comp_def]

theorem toList_of_tokenize_eq {t : String} (h : tokenize t = [t]) :
    t.toList ≠ [] ∧ ∀ c ∈ t.toList, isBlank c = false := by
  have hmem : t.toList ∈ tokens t.toList := by
    rw [← map_toList_tokenize, h]
    exact List.mem_singleton_self _
  exact ⟨ne_nil_of_mem_tokens hmem, fun c hc => not_isBlank_of_mem_tokens hmem hc⟩

/-- Texts that are one token each are the tokens of the text that joins them. -/
theorem tokenize_intercalate {ts : List String} (h : ∀ t ∈ ts, tokenize t = [t]) :
    tokenize (" ".intercalate ts) = ts := by
  have hts : ∀ t ∈ ts.map String.toList, t ≠ [] ∧ ∀ c ∈ t, isBlank c = false := by
    intro t ht
    obtain ⟨s, hs, rfl⟩ := List.mem_map.1 ht
    exact toList_of_tokenize_eq (h s hs)
  have hsep : " ".toList = [' '] := rfl
  rw [tokenize, String.toList_intercalate, hsep, tokens_intercalate hts]
  simp [Function.comp_def]

end ReversePolish
