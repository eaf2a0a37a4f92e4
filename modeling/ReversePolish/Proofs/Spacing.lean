import ReversePolish.Proofs.TrimmedReading

set_option autoImplicit false

/-! # Spacing

The tokens of a text are its maximal runs of characters that are not blank, in the order in which
they start. They are also what is left when the blanks around the text are taken off and the rest is
cut at its runs of blanks: a text that is trimmed starts and ends with a token, so no piece is
empty. Reading looks at nothing but the tokens, so two texts with the same tokens are read alike,
and the source of an expression is read as the expression. -/

namespace ReversePolish

/-! ## Definitions -/

/-- A maximal run of characters that are not blank, and the place where it starts. -/
structure IsRunAt (cs : List Char) (i : Nat) (t : List Char) : Prop where
  ne_nil : t ≠ []
  stands : t <+: cs.drop i
  not_blank : ∀ c ∈ t, isBlank c = false
  blank_before : ∀ k, k + 1 = i → ∀ c ∈ cs[k]?, isBlank c = true
  blank_behind : ∀ c ∈ cs[i + t.length]?, isBlank c = true

/-- Texts that are all maximal runs of a text, in the order in which they start. -/
def ListsRuns (cs : List Char) (ts : List (List Char)) : Prop :=
  ∃ placed : List (Nat × List Char), placed.map Prod.snd = ts ∧
    (placed.map Prod.fst).Pairwise (· < ·) ∧ ∀ i t, (i, t) ∈ placed ↔ IsRunAt cs i t

/-- The pieces of a text between its runs of blanks. A run at the front has an empty piece before
    it, and one at the end an empty piece behind it. -/
def pieces : List Char → List (List Char)
  | [] => [[]]
  | c :: cs =>
    if isBlank c then
      match cs with
      | [] => [[], []]
      | d :: _ => if isBlank d then pieces cs else [] :: pieces cs
    else
      match pieces cs with
      | [] => [[c]]
      | p :: ps => (c :: p) :: ps

/-- The pieces of a text without the blanks around it; a blank text has none. -/
def trimmedPieces (text : String) : List String :=
  let cs := trim isBlank text.toList
  if cs.isEmpty then [] else (pieces cs).map String.ofList

/-! ## Runs -/

section Runs

variable {c d : Char} {cs t : List Char} {i k : Nat}

theorem isRunAt_succ_iff :
    IsRunAt (c :: cs) (k + 1) t ↔ IsRunAt cs k t ∧ (k = 0 → isBlank c = true) := by
  have hbehind : k + 1 + t.length = k + t.length + 1 := Nat.succ_add k t.length
  constructor
  · rintro ⟨hne, hstands, hfree, hbefore, hafter⟩
    rw [hbehind, List.getElem?_cons_succ] at hafter
    refine ⟨⟨hne, hstands, hfree, fun j hj => ?_, hafter⟩, ?_⟩
    · have hchar := hbefore (j + 1) (by omega)
      rwa [List.getElem?_cons_succ] at hchar
    · rintro rfl
      exact hbefore 0 rfl c rfl
  · rintro ⟨⟨hne, hstands, hfree, hbefore, hafter⟩, hc⟩
    refine ⟨hne, hstands, hfree, fun j hj => ?_, ?_⟩
    · cases j with
      | zero =>
        rintro _ ⟨rfl⟩
        exact hc (by omega)
      | succ j =>
        rw [List.getElem?_cons_succ]
        exact hbefore j (by omega)
    · rwa [hbehind, List.getElem?_cons_succ]

theorem takeWhile_eq_nil_of_blank (h : ∀ a ∈ cs.head?, isBlank a = true) :
    cs.takeWhile (!isBlank ·) = [] := by
  cases cs with
  | nil => rfl
  | cons a cs => exact List.takeWhile_cons_of_neg (by simp [h a rfl])

theorem getElem?_length_takeWhile (p : Char → Bool) (cs : List Char) :
    ∀ c ∈ cs[(cs.takeWhile p).length]?, p c = false := by
  induction cs with
  | nil => simp
  | cons a cs ih =>
    cases ha : p a with
    | true => simpa [List.takeWhile_cons_of_pos ha] using ih
    | false => simp [List.takeWhile_cons_of_neg, ha]

/-- A run at the front is all that comes before the first blank. -/
theorem isRunAt_zero_iff :
    IsRunAt (c :: cs) 0 t ↔ isBlank c = false ∧ t = c :: cs.takeWhile (!isBlank ·) := by
  constructor
  · rintro ⟨hne, ⟨rest, hcs⟩, hfree, -, hbehind⟩
    obtain ⟨a, u, rfl⟩ := List.exists_cons_of_ne_nil hne
    obtain ⟨rfl, rfl⟩ : a = c ∧ u ++ rest = cs := List.cons.inj hcs
    obtain ⟨ha, hu⟩ := List.forall_mem_cons.1 hfree
    have hrest : ∀ b ∈ rest.head?, isBlank b = true := by
      intro b hb
      refine hbehind b ?_
      rw [Nat.zero_add, ← List.cons_append, List.getElem?_append_right (Nat.le_refl _), Nat.sub_self,
        ← List.head?_eq_getElem?]
      exact hb
    rw [List.takeWhile_append_of_pos (by simpa using hu), takeWhile_eq_nil_of_blank hrest,
      List.append_nil]
    exact ⟨ha, rfl⟩
  · rintro ⟨hc, rfl⟩
    rw [← List.takeWhile_cons_of_pos (p := (!isBlank ·)) (by simp [hc])]
    refine ⟨by simp [hc], List.takeWhile_prefix _, fun a ha => ?_, fun k hk => by omega,
      fun a ha => ?_⟩
    · simpa using List.mem_takeWhile_imp ha
    · rw [Nat.zero_add] at ha
      simpa using getElem?_length_takeWhile _ _ a ha

theorem IsRunAt.ne_zero (h : IsRunAt cs i t) (hcs : ∀ a ∈ cs.head?, isBlank a = true) : i ≠ 0 := by
  rintro rfl
  cases cs with
  | nil => exact h.ne_nil (List.prefix_nil.1 h.stands)
  | cons a cs =>
    have ha := (isRunAt_zero_iff.1 h).1
    rw [hcs a rfl] at ha
    cases ha

end Runs

section Placed

variable {c d : Char} {cs t : List Char} {ts : List (List Char)} {placed : List (Nat × List Char)}

theorem mem_map_succ_iff {i : Nat} :
    (i, t) ∈ placed.map (Prod.map (· + 1) id) ↔ ∃ k, i = k + 1 ∧ (k, t) ∈ placed := by
  simp only [List.mem_map, Prod.exists, Prod.map_apply, id_eq, Prod.mk.injEq]
  constructor
  · rintro ⟨k, u, hmem, rfl, rfl⟩
    exact ⟨k, rfl, hmem⟩
  · rintro ⟨k, rfl, hmem⟩
    exact ⟨k, t, hmem, rfl, rfl⟩

theorem map_snd_map_succ :
    (placed.map (Prod.map (· + 1) id)).map Prod.snd = placed.map Prod.snd := by
  rw [List.map_map]
  rfl

theorem pairwise_map_succ (h : (placed.map Prod.fst).Pairwise (· < ·)) :
    ((placed.map (Prod.map (· + 1) id)).map Prod.fst).Pairwise (· < ·) := by
  rw [List.pairwise_map] at h
  rw [List.map_map, List.pairwise_map]
  exact h.imp fun hlt => Nat.succ_lt_succ hlt

theorem ListsRuns.cons_of_blank (hc : isBlank c = true) (h : ListsRuns cs ts) :
    ListsRuns (c :: cs) ts := by
  obtain ⟨placed, rfl, hlt, hmem⟩ := h
  refine ⟨placed.map (Prod.map (· + 1) id), map_snd_map_succ, pairwise_map_succ hlt, fun i t => ?_⟩
  rw [mem_map_succ_iff]
  cases i with
  | zero => simp [isRunAt_zero_iff, hc]
  | succ k => simp [isRunAt_succ_iff, hc, hmem]

/-- The run at the front comes before those that start later. -/
theorem listsRuns_cons_of_not_blank (hc : isBlank c = false)
    (hlt : (placed.map Prod.fst).Pairwise (· < ·))
    (hmem : ∀ i t, (i, t) ∈ placed ↔ IsRunAt cs i t ∧ i ≠ 0) :
    ListsRuns (c :: cs) ((c :: cs.takeWhile (!isBlank ·)) :: placed.map Prod.snd) := by
  refine ⟨(0, c :: cs.takeWhile (!isBlank ·)) :: placed.map (Prod.map (· + 1) id), ?_, ?_,
    fun i t => ?_⟩
  · rw [List.map_cons, map_snd_map_succ]
  · rw [List.map_cons, List.pairwise_cons]
    refine ⟨fun i hi => ?_, pairwise_map_succ hlt⟩
    obtain ⟨⟨i, t⟩, hp, rfl⟩ := List.mem_map.1 hi
    obtain ⟨k, rfl, -⟩ := mem_map_succ_iff.1 hp
    exact Nat.succ_pos k
  · rw [List.mem_cons, mem_map_succ_iff]
    cases i with
    | zero => simp [isRunAt_zero_iff, hc]
    | succ k => simp [isRunAt_succ_iff, hc, hmem]

/-- In front of a blank, or at the end, a character that is not blank is a run. -/
theorem ListsRuns.cons_of_blank_next (hc : isBlank c = false)
    (hcs : ∀ a ∈ cs.head?, isBlank a = true) (h : ListsRuns cs ts) :
    ListsRuns (c :: cs) ([c] :: ts) := by
  obtain ⟨placed, rfl, hlt, hmem⟩ := h
  have hlater : ∀ i t, (i, t) ∈ placed ↔ IsRunAt cs i t ∧ i ≠ 0 := by
    intro i t
    rw [hmem, iff_self_and]
    exact fun hrun => hrun.ne_zero hcs
  have hruns := listsRuns_cons_of_not_blank hc hlt hlater
  rwa [takeWhile_eq_nil_of_blank hcs] at hruns

/-- In front of a run, a character that is not blank is part of it. -/
theorem ListsRuns.cons_of_not_blank_next (hc : isBlank c = false) (hd : isBlank d = false)
    (h : ListsRuns (d :: cs) (t :: ts)) : ListsRuns (c :: d :: cs) ((c :: t) :: ts) := by
  obtain ⟨placed, hsnd, hlt, hmem⟩ := h
  obtain ⟨⟨k, u⟩, ps, rfl, rfl, rfl⟩ := List.map_eq_cons_iff.1 hsnd
  rw [List.map_cons, List.pairwise_cons] at hlt
  have hlater : ∀ p ∈ ps, k < p.1 := fun p hp => hlt.1 p.1 (List.mem_map_of_mem hp)
  -- the first of the runs is the one that starts at the front
  have hfirst : (0, (d :: cs).takeWhile (!isBlank ·)) ∈ (k, u) :: ps := by
    rw [hmem, List.takeWhile_cons_of_pos (by simp [hd])]
    exact isRunAt_zero_iff.2 ⟨hd, rfl⟩
  have hk : k = 0 ∧ u = (d :: cs).takeWhile (!isBlank ·) := by
    rcases List.mem_cons.1 hfirst with heq | hps
    · exact Prod.mk.inj heq.symm
    · exact absurd (hlater _ hps) (Nat.not_lt_zero k)
  obtain ⟨rfl, rfl⟩ := hk
  refine listsRuns_cons_of_not_blank hc hlt.2 fun i t => ?_
  rw [← hmem, List.mem_cons]
  constructor
  · intro hps
    exact ⟨.inr hps, Nat.pos_iff_ne_zero.1 (hlater _ hps)⟩
  · rintro ⟨heq | hps, hi⟩
    · exact absurd (Prod.mk.inj heq).1 hi
    · exact hps

end Placed

/-- The tokens of a text are its maximal runs. -/
theorem listsRuns_tokens (cs : List Char) : ListsRuns cs (tokens cs) := by
  induction cs with
  | nil =>
    refine ⟨[], rfl, .nil, fun i t => iff_of_false List.not_mem_nil fun h => h.ne_nil ?_⟩
    simpa using h.stands
  | cons c cs ih =>
    cases hc : isBlank c with
    | true =>
      rw [tokens_of_blank hc]
      exact ih.cons_of_blank hc
    | false =>
      cases cs with
      | nil =>
        rw [tokens_of_not_blank (List.cons_ne_nil _ _) (by simpa using hc)]
        exact ih.cons_of_blank_next hc (by simp)
      | cons d ds =>
        cases hd : isBlank d with
        | true =>
          rw [tokens_cons_cons_of_blank hc hd]
          exact ih.cons_of_blank_next hc (by simp [hd])
        | false =>
          obtain ⟨t, ts, hts, hall⟩ := tokens_cons_cons hc hd ds
          rw [hts] at ih
          rw [hall]
          exact ih.cons_of_not_blank_next hc hd

/-! ## Pieces of a trimmed text -/

section Pieces

variable {c : Char} {cs : List Char}

/-- Up to a last character that is not blank, the pieces are the tokens, with an empty one in front
    where the text starts with a blank. -/
theorem pieces_cons (hlast : ∀ a ∈ (c :: cs).getLast?, isBlank a = false) :
    pieces (c :: cs) = if isBlank c then [] :: tokens (c :: cs) else tokens (c :: cs) := by
  induction cs generalizing c with
  | nil =>
    have hc : isBlank c = false := hlast c rfl
    rw [tokens_of_not_blank (List.cons_ne_nil _ _) (by simpa using hc)]
    simp [pieces, hc]
  | cons d ds ih =>
    rw [List.getLast?_cons_cons] at hlast
    have hrest := ih hlast
    rw [pieces]
    cases hc : isBlank c with
    | true =>
      rw [tokens_of_blank hc]
      cases hd : isBlank d with
      | true => simpa [hd] using hrest
      | false => simpa [hd] using hrest
    | false =>
      cases hd : isBlank d with
      | true =>
        rw [hd] at hrest
        simp only [hrest]
        simp [tokens_cons_cons_of_blank hc hd]
      | false =>
        obtain ⟨t, ts, hts, hall⟩ := tokens_cons_cons hc hd ds
        rw [hd, hts] at hrest
        simp [hrest, hall]

theorem head?_trim (p : Char → Bool) (cs : List Char) : ∀ a ∈ (trim p cs).head?, p a = false := by
  intro a ha
  obtain ⟨rest, hrest⟩ := trim_isPrefix_dropWhile p cs
  have hnot := List.head?_dropWhile_not p cs
  rw [← hrest, List.head?_append, Option.mem_def.1 ha] at hnot
  exact hnot

theorem getLast?_trim (p : Char → Bool) (cs : List Char) :
    ∀ a ∈ (trim p cs).getLast?, p a = false := by
  intro a ha
  have hback : trim p cs = (cs.dropWhile p).rdropWhile p := rfl
  rw [hback] at ha
  obtain ⟨hne, rfl⟩ := List.mem_getLast?_eq_getLast ha
  exact Bool.eq_false_iff.2 (List.rdropWhile_last_not p _ hne)

theorem tokenize_eq_trimmedPieces (text : String) : tokenize text = trimmedPieces text := by
  rw [tokenize, ← tokens_trim_isBlank, trimmedPieces]
  cases h : trim isBlank text.toList with
  | nil => rfl
  | cons c cs =>
    have hc : isBlank c = false := head?_trim isBlank text.toList c (by rw [h]; rfl)
    have hlast := getLast?_trim isBlank text.toList
    rw [h] at hlast
    simp [pieces_cons hlast, hc]

end Pieces

/-! ## Reading -/

section Reading

variable {d : Domain} {text text' : String}

theorem trimText_eq_empty_iff : trimText isBlank text = "" ↔ tokenize text = [] := by
  rw [tokenize, List.map_eq_nil_iff, ← tokens_trim_isBlank, trimText, String.ofList_eq_empty_iff]
  constructor
  · intro h
    rw [h]
    rfl
  · intro h
    rw [tokens_eq_nil_iff] at h
    cases htrim : trim isBlank text.toList with
    | nil => rfl
    | cons c cs =>
      have hc : isBlank c = false := head?_trim isBlank text.toList c (by rw [htrim]; rfl)
      rw [h c (htrim ▸ List.mem_cons_self)] at hc
      cases hc

theorem read_eq_emptyExpression_iff :
    Expression.read d text = .error (.syntaxError .emptyExpression) ↔ tokenize text = [] := by
  constructor
  · intro h
    cases Diagnosis.of_read h with
    | blank all_blank => exact tokenize_eq_nil_iff.2 all_blank
    | illegible _ _ _ fails =>
      -- a token that is no literal has a failure of its own
      rcases readLiteral_eq_error fails with ⟨cause, hcause⟩ | ⟨n, hn⟩
      · cases hcause
      · cases hn
  · intro h
    exact read_eq_error_iff.2 (.inl ⟨h, rfl⟩)

/-- Reading the tokens of another text comes to the same root, or it fails in the same way. -/
theorem read_of_tokenize_eq (h : tokenize text = tokenize text') :
    (∃ e e', Expression.read d text = .ok e ∧ Expression.read d text' = .ok e' ∧
        e.domain = e'.domain ∧ e.root = e'.root) ∨
      ∃ f, Expression.read d text = .error f ∧ Expression.read d text' = .error f := by
  cases hread : Expression.read d text with
  | ok e =>
    obtain ⟨r, hr, rfl⟩ := read_eq_ok_iff.1 hread
    rw [h] at hr
    exact .inl ⟨_, _, rfl, read_eq_ok_iff.2 ⟨r, hr, rfl⟩, rfl, rfl⟩
  | error f =>
    have hfails := read_eq_error_iff.1 hread
    rw [h] at hfails
    exact .inr ⟨f, rfl, read_eq_error_iff.2 hfails⟩

theorem read_source {e : Expression} (h : Expression.read d text = .ok e) :
    Expression.read d e.source = .ok e := by
  obtain ⟨r, -, rfl⟩ := read_eq_ok_iff.1 h
  exact (read_trimText_isBlank d text).trans h

end Reading

/-- The tokens are the maximal runs of characters that are not blank, and what the blanks around a
    text and its runs of blanks leave; there are none exactly where the text is refused as empty.
    Texts with the same tokens have the same root or fail in the same way, and the source of an
    expression is read as this expression. -/
theorem reading_ignores_spacing (d : Domain) :
    (∀ text,
      ListsRuns text.toList ((tokenize text).map String.toList) ∧
        ((tokenize text).map String.toList).flatten = text.toList.filter (!isBlank ·) ∧
        tokenize text = trimmedPieces text ∧
        (trimText isBlank text = "" ↔ tokenize text = []) ∧
        (Expression.read d text = .error (.syntaxError .emptyExpression) ↔ tokenize text = [])) ∧
      (∀ text text', tokenize text = tokenize text' →
        (∃ e e', Expression.read d text = .ok e ∧ Expression.read d text' = .ok e' ∧
            e.domain = e'.domain ∧ e.root = e'.root) ∨
          ∃ f, Expression.read d text = .error f ∧ Expression.read d text' = .error f) ∧
      ∀ text e, Expression.read d text = .ok e → Expression.read d e.source = .ok e := by
  refine ⟨fun text => ?_, fun _ _ => read_of_tokenize_eq, fun _ _ => read_source⟩
  rw [map_toList_tokenize]
  exact ⟨listsRuns_tokens _, flatten_tokens _, tokenize_eq_trimmedPieces text,
    trimText_eq_empty_iff, read_eq_emptyExpression_iff⟩

/-- Blanks of all kinds around the tokens of a sum and between them make no difference. -/
theorem reading_ignores_spacing_of_sum :
    let text := " \x0b1\t2\n +\x0c"
    tokenize text = tokenize "1 2 +" ∧
      ∃ e e', Expression.read .arithmetic text = .ok e ∧ e.source = "1\t2\n +" ∧
        Expression.read .arithmetic e.source = .ok e ∧
        Expression.read .arithmetic "1 2 +" = .ok e' ∧ e.root = e'.root := by
  intro text
  have htokens : tokenize text = tokenize "1 2 +" := by decide +kernel
  have htrim : trimText isBlank text = "1\t2\n +" := by decide +kernel
  obtain ⟨-, hsame, hsource⟩ := reading_ignores_spacing .arithmetic
  rcases hsame _ _ htokens with ⟨e, e', he, he', -, hroot⟩ | ⟨f, hf, -⟩
  · have hread := hsource _ _ he
    obtain ⟨r, -, rfl⟩ := read_eq_ok_iff.1 he
    exact ⟨htokens, _, e', he, htrim, hread, he', hroot⟩
  · have hok : (Expression.read .arithmetic text).toOption.isSome = true := by decide +kernel
    rw [hf] at hok
    cases hok

end ReversePolish
