import Mathlib.Data.List.DropRight
import ReversePolish.Proofs.Tokens

set_option autoImplicit false

/-! # The edges of a text

Trimming a text can only change its first and its last token. It takes off blanks, which belong
to no token, up to the first character of a token that it is told to take off too, and the same
from the end. So the tokens of a trimmed text are the same as far as they have no such character,
and where none has one, the set of characters takes off no more than the blanks. -/

namespace ReversePolish

/-! ## Tokens at the ends -/

section Ends

variable {a c : Char}

theorem tokens_cons_cons_of_blank (ha : isBlank a = false) (hc : isBlank c = true)
    (cs : List Char) : tokens (a :: c :: cs) = [a] :: tokens (c :: cs) := by
  conv => lhs; unfold tokens
  simp [ha, hc]

theorem tokens_cons_cons (ha : isBlank a = false) (hc : isBlank c = false) (cs : List Char) :
    ∃ t ts, tokens (c :: cs) = t :: ts ∧ tokens (a :: c :: cs) = (a :: t) :: ts := by
  have hne : tokens (c :: cs) ≠ [] := by
    rw [Ne, tokens_eq_nil_iff]
    intro hblank
    rw [hblank c List.mem_cons_self] at hc
    cases hc
  obtain ⟨t, ts, hts⟩ := List.exists_cons_of_ne_nil hne
  refine ⟨t, ts, hts, ?_⟩
  conv => lhs; unfold tokens
  simp [ha, hc, hts]

/-- A character that is not blank is the first of the first token. -/
theorem exists_tokens_cons (hc : isBlank c = false) (cs : List Char) :
    ∃ t ts, tokens (c :: cs) = (c :: t) :: ts := by
  cases cs with
  | nil => exact ⟨[], [], tokens_of_not_blank (List.cons_ne_nil _ _) (by simpa using hc)⟩
  | cons d ds =>
    cases hd : isBlank d with
    | true => exact ⟨[], _, tokens_cons_cons_of_blank hc hd ds⟩
    | false =>
      obtain ⟨t, ts, -, hts⟩ := tokens_cons_cons hc hd ds
      exact ⟨t, ts, hts⟩

/-- A blank ends the tokens in front of it. -/
theorem tokens_append_of_blank (hc : isBlank c = true) (cs ds : List Char) :
    tokens (cs ++ c :: ds) = tokens cs ++ tokens ds := by
  induction cs with
  | nil => exact tokens_of_blank hc ds
  | cons a cs ih =>
    cases ha : isBlank a with
    | true => rw [List.cons_append, tokens_of_blank ha, tokens_of_blank ha, ih]
    | false =>
      cases cs with
      | nil =>
        rw [List.cons_append, List.nil_append, tokens_cons_cons_of_blank ha hc,
          tokens_of_blank hc, tokens_of_not_blank (List.cons_ne_nil _ _) (by simpa using ha)]
        rfl
      | cons e es =>
        rw [List.cons_append] at ih
        rw [List.cons_append, List.cons_append]
        cases he : isBlank e with
        | true =>
          rw [tokens_cons_cons_of_blank ha he, tokens_cons_cons_of_blank ha he, ih,
            List.cons_append]
        | false =>
          obtain ⟨t, ts, hts, hall⟩ := tokens_cons_cons ha he es
          obtain ⟨u, us, hus, hlong⟩ := tokens_cons_cons ha he (es ++ c :: ds)
          rw [ih, hts, List.cons_append] at hus
          obtain ⟨rfl, rfl⟩ := List.cons.inj hus
          rw [hall, hlong, List.cons_append]

theorem tokens_concat_blank (hc : isBlank c = true) (cs : List Char) :
    tokens (cs ++ [c]) = tokens cs := by
  rw [tokens_append_of_blank hc]
  exact List.append_nil _

/-- A character that is not blank is in the last token, and the tokens before it were there
    without it. -/
theorem exists_tokens_concat (hc : isBlank c = false) (cs : List Char) :
    ∃ ts t, tokens (cs ++ [c]) = ts ++ [t] ∧ c ∈ t ∧ ts <+: tokens cs := by
  induction cs with
  | nil =>
    refine ⟨[], [c], ?_, List.mem_cons_self, List.nil_prefix⟩
    exact tokens_of_not_blank (List.cons_ne_nil _ _) (by simpa using hc)
  | cons a cs ih =>
    obtain ⟨ts, t, hts, hmem, hbefore⟩ := ih
    cases ha : isBlank a with
    | true =>
      rw [List.cons_append, tokens_of_blank ha, tokens_of_blank ha]
      exact ⟨ts, t, hts, hmem, hbefore⟩
    | false =>
      cases cs with
      | nil =>
        refine ⟨[], [a, c], ?_, by simp, List.nil_prefix⟩
        exact tokens_of_not_blank (List.cons_ne_nil _ _) (by simp [ha, hc])
      | cons d ds =>
        rw [List.cons_append] at hts
        rw [List.cons_append, List.cons_append]
        cases hd : isBlank d with
        | true =>
          rw [tokens_cons_cons_of_blank ha hd, tokens_cons_cons_of_blank ha hd, hts]
          exact ⟨[a] :: ts, t, rfl, hmem, List.cons_prefix_cons.2 ⟨rfl, hbefore⟩⟩
        | false =>
          obtain ⟨u, us, hus, hall⟩ := tokens_cons_cons ha hd ds
          obtain ⟨v, vs, hvs, hlong⟩ := tokens_cons_cons ha hd (ds ++ [c])
          rw [hts] at hvs
          rw [hus] at hbefore
          rw [hall, hlong]
          -- `a` joins the first token, which is also the last one if it is the only one
          cases ts with
          | nil =>
            cases hvs
            exact ⟨[], a :: t, rfl, List.mem_cons_of_mem _ hmem, List.nil_prefix⟩
          | cons w ws =>
            cases hvs
            obtain ⟨hw, hrest⟩ := List.cons_prefix_cons.1 hbefore
            exact ⟨(a :: v) :: ws, t, rfl, hmem, List.cons_prefix_cons.2 ⟨by rw [hw], hrest⟩⟩

end Ends

/-- The tokens have all characters that are not blank, in their order. -/
theorem flatten_tokens (cs : List Char) : (tokens cs).flatten = cs.filter (!isBlank ·) := by
  induction cs with
  | nil => rfl
  | cons a cs ih =>
    cases ha : isBlank a with
    | true => rw [tokens_of_blank ha, ih, List.filter_cons_of_neg (by simp [ha])]
    | false =>
      rw [List.filter_cons_of_pos (by simp [ha]), ← ih]
      cases cs with
      | nil =>
        rw [tokens_of_not_blank (List.cons_ne_nil _ _) (by simpa using ha)]
        rfl
      | cons c cs =>
        cases hc : isBlank c with
        | true => rw [tokens_cons_cons_of_blank ha hc, List.flatten_cons, List.singleton_append]
        | false =>
          obtain ⟨t, ts, hts, hall⟩ := tokens_cons_cons ha hc cs
          rw [hall, hts, List.flatten_cons, List.flatten_cons, List.cons_append]

/-- A character that is not blank is in some token. -/
theorem exists_mem_tokens {c : Char} {cs : List Char} (hc : c ∈ cs) (hb : isBlank c = false) :
    ∃ t ∈ tokens cs, c ∈ t := by
  rw [← List.mem_flatten, flatten_tokens]
  exact List.mem_filter.2 ⟨hc, by simp [hb]⟩

/-! ## Tokens of a trimmed text -/

section Trimming

variable {p q : Char → Bool} {cs : List Char} {k : Nat}

/-- Some tokens have no character of a set. -/
def FreeOf (p : Char → Bool) (ts : List (List Char)) : Prop :=
  ∀ t ∈ ts, ∀ c ∈ t, p c = false

theorem take_tokens_dropWhile (h : FreeOf p ((tokens cs).take k)) :
    (tokens (cs.dropWhile p)).take k = (tokens cs).take k := by
  induction cs with
  | nil => rfl
  | cons c cs ih =>
    by_cases hp : p c = true
    · rw [List.dropWhile_cons_of_pos hp]
      cases hc : isBlank c with
      | true =>
        rw [tokens_of_blank hc] at h ⊢
        exact ih h
      | false =>
        cases k with
        | zero => rw [List.take_zero, List.take_zero]
        | succ k =>
          obtain ⟨t, ts, hts⟩ := exists_tokens_cons hc cs
          rw [hts, List.take_succ_cons] at h
          have hfree := h _ List.mem_cons_self c List.mem_cons_self
          rw [hp] at hfree
          cases hfree
    · rw [List.dropWhile_cons_of_neg hp]

theorem take_tokens_trimEnd (h : FreeOf p ((tokens cs).take k)) :
    (tokens (trimEnd p cs)).take k = (tokens cs).take k := by
  have hdrop : ∀ ds, trimEnd p ds = ds.rdropWhile p := fun _ => rfl
  rw [hdrop]
  induction cs using List.reverseRecOn with
  | nil => rfl
  | append_singleton cs c ih =>
    by_cases hp : p c = true
    · rw [List.rdropWhile_concat_pos _ _ _ hp]
      cases hc : isBlank c with
      | true =>
        rw [tokens_concat_blank hc] at h ⊢
        exact ih h
      | false =>
        obtain ⟨ts, t, hts, hmem, hbefore⟩ := exists_tokens_concat hc cs
        rw [hts] at h ⊢
        -- the last token has `c`, so it is none of the first `k`
        have hk : k ≤ ts.length := by
          by_contra hlt
          have hall : (ts ++ [t]).take k = ts ++ [t] := List.take_of_length_le (by simp; omega)
          rw [hall] at h
          have hfree := h t (List.mem_append_right _ List.mem_cons_self) c hmem
          rw [hp] at hfree
          cases hfree
        obtain ⟨us, hus⟩ := hbefore
        have hsame : (tokens cs).take k = (ts ++ [t]).take k := by
          rw [← hus, List.take_append_of_le_length hk, List.take_append_of_le_length hk]
        rw [← hsame] at h ⊢
        exact ih h
    · rw [List.rdropWhile_concat_neg _ _ _ hp]

/-- As far as the tokens have no character that is taken off, they stay the same. -/
theorem take_tokens_trim (h : FreeOf p ((tokens cs).take k)) :
    (tokens (trim p cs)).take k = (tokens cs).take k := by
  have hfront := take_tokens_dropWhile h
  rw [← hfront] at h
  rw [trim, take_tokens_trimEnd h, hfront]

theorem tokens_trim_isBlank (cs : List Char) : tokens (trim isBlank cs) = tokens cs := by
  have htake : ∀ k, (tokens (trim isBlank cs)).take k = (tokens cs).take k := by
    intro k
    refine take_tokens_trim fun t ht c hc => ?_
    exact not_isBlank_of_mem_tokens (List.mem_of_mem_take ht) hc
  have hall := htake (max (tokens (trim isBlank cs)).length (tokens cs).length)
  rwa [List.take_of_length_le (Nat.le_max_left _ _), List.take_of_length_le (Nat.le_max_right _ _)]
    at hall

/-! ## What is taken off -/

theorem dropWhile_congr (h : ∀ c ∈ cs, p c = q c) : cs.dropWhile p = cs.dropWhile q := by
  induction cs with
  | nil => rfl
  | cons c cs ih =>
    obtain ⟨hc, hcs⟩ := List.forall_mem_cons.1 h
    rw [List.dropWhile_cons, List.dropWhile_cons, hc, ih hcs]

theorem trim_congr (h : ∀ c ∈ cs, p c = q c) : trim p cs = trim q cs := by
  have hrest : ∀ c ∈ (cs.dropWhile q).reverse, p c = q c := by
    intro c hc
    exact h c ((List.dropWhile_sublist q).mem (List.mem_reverse.1 hc))
  rw [trim, trim, trimEnd, trimEnd, dropWhile_congr h, dropWhile_congr hrest]

/-- Where no token has a character of a larger set than the blanks, it takes off the blanks. -/
theorem trim_eq_trim_isBlank (hp : ∀ c, isBlank c = true → p c = true)
    (h : FreeOf p (tokens cs)) : trim p cs = trim isBlank cs := by
  refine trim_congr fun c hc => ?_
  cases hb : isBlank c with
  | true => exact hp c hb
  | false =>
    obtain ⟨t, ht, hct⟩ := exists_mem_tokens hc hb
    exact h t ht c hct

theorem trim_isPrefix_dropWhile (p : Char → Bool) (cs : List Char) :
    trim p cs <+: cs.dropWhile p :=
  List.rdropWhile_prefix p _

theorem trim_trim (p : Char → Bool) (cs : List Char) : trim p (trim p cs) = trim p cs := by
  have hback : trim p cs = (cs.dropWhile p).rdropWhile p := rfl
  have hfront : (trim p cs).dropWhile p = trim p cs := by
    rw [List.dropWhile_eq_self_iff]
    intro hpos
    rw [(trim_isPrefix_dropWhile p cs).getElem hpos]
    exact List.dropWhile_get_zero_not p cs _
  rw [trim, hfront, hback]
  exact List.rdropWhile_idempotent p _

end Trimming

/-! ## Texts -/

variable {p : Char → Bool} {text : String}

theorem take_tokenize_trimText {k : Nat}
    (h : ∀ token ∈ (tokenize text).take k, ∀ c ∈ token.toList, p c = false) :
    (tokenize (trimText p text)).take k = (tokenize text).take k := by
  have hfree : FreeOf p ((tokens text.toList).take k) := by
    intro t ht c hc
    refine h (String.ofList t) ?_ c (by rwa [String.toList_ofList])
    rw [tokenize, ← List.map_take]
    exact List.mem_map_of_mem ht
  rw [tokenize, tokenize, trimText, String.toList_ofList, ← List.map_take, ← List.map_take,
    take_tokens_trim hfree]

theorem tokenize_trimText_isBlank (text : String) :
    tokenize (trimText isBlank text) = tokenize text := by
  rw [tokenize, tokenize, trimText, String.toList_ofList, tokens_trim_isBlank]

theorem trimText_trimText (p : Char → Bool) (text : String) :
    trimText p (trimText p text) = trimText p text := by
  rw [trimText, trimText, String.toList_ofList, trim_trim]

theorem trimText_eq_trimText_isBlank (hp : ∀ c, isBlank c = true → p c = true)
    (h : ∀ token ∈ tokenize text, ∀ c ∈ token.toList, p c = false) :
    trimText p text = trimText isBlank text := by
  rw [trimText, trimText, trim_eq_trim_isBlank hp]
  intro t ht c hc
  refine h (String.ofList t) ?_ c (by rwa [String.toList_ofList])
  exact List.mem_map_of_mem ht

end ReversePolish
