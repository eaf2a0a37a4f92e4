import ReversePolish.Text.Blank

set_option autoImplicit false

/-! # Tokens

A token is a maximal run of characters that are not blank. `tokens` lists the tokens of a text
in order; it never lists an empty one, and it leaves every Unicode space other than the six
blanks inside its token. -/

namespace ReversePolish

/-- The maximal runs of characters that are not blank, from left to right. -/
def tokens : List Char → List (List Char)
  | [] => []
  | c :: cs =>
    if isBlank c then tokens cs
    else match cs with
      | [] => [[c]]
      | d :: _ =>
        if isBlank d then [c] :: tokens cs
        else match tokens cs with
          | [] => [[c]]
          | t :: ts => (c :: t) :: ts

theorem ne_nil_of_mem_tokens {cs t : List Char} (h : t ∈ tokens cs) : t ≠ [] := by
  induction cs generalizing t with
  | nil => simp [tokens] at h
  | cons c cs ih =>
    unfold tokens at h
    split at h
    · exact ih h
    · split at h
      · simp_all
      · split at h
        · rcases List.mem_cons.1 h with rfl | h
          · simp
          · exact ih h
        · split at h
          · simp_all
          · rename_i u us hus
            rcases List.mem_cons.1 h with rfl | h
            · simp
            · exact ih (hus ▸ List.mem_cons_of_mem u h)

theorem not_isBlank_of_mem_tokens {cs t : List Char} {c : Char} (ht : t ∈ tokens cs)
    (hc : c ∈ t) : isBlank c = false := by
  induction cs generalizing t with
  | nil => simp [tokens] at ht
  | cons a cs ih =>
    unfold tokens at ht
    split at ht
    · exact ih ht hc
    · rename_i ha
      split at ht
      · simp_all
      · split at ht
        · rcases List.mem_cons.1 ht with rfl | ht
          · simp_all
          · exact ih ht hc
        · split at ht
          · simp_all
          · rename_i u us hus
            rcases List.mem_cons.1 ht with rfl | ht
            · -- the first token grows by `a`, which is not blank
              rcases List.mem_cons.1 hc with rfl | hc
              · simpa using ha
              · exact ih (hus ▸ List.mem_cons_self) hc
            · exact ih (hus ▸ List.mem_cons_of_mem u ht) hc

/-- The tokens of a text. -/
def tokenize (text : String) : List String :=
  (tokens text.toList).map String.ofList

end ReversePolish
