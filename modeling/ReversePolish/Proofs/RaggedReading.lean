import ReversePolish.Proofs.Postfix
import ReversePolish.Proofs.TrimmedReading
import ReversePolish.Reading.Ragged

set_option autoImplicit false

/-! # Ragged texts and texts beyond ASCII

Reading does not tell one character beyond ASCII from another where it looks: none of them is
blank, a comma, or part of an operator or of a literal, and the same holds of half a pair. So a
ragged text is refused as the text that has such a character in place of every half: at the same
token, and for the same reason. -/

namespace ReversePolish

/-! ## Definitions -/

/-- The character of a code point, and `x` for half of a pair. -/
def CodePoint.fill (x : Char) : CodePoint → Char
  | char c => c
  | half _ => x

/-- The text with `x` in place of every half. -/
def RaggedText.fill (x : Char) (t : RaggedText) : String :=
  String.ofList (t.codePoints.map (CodePoint.fill x))

/-- The failure with `x` in place of every half in the token at fault. -/
def RaggedFailure.fill (x : Char) : RaggedFailure → ReadingFailure
  | earlier f => f
  | badLiteral cause token position => .syntaxError (.badLiteral cause (token.fill x) position)

variable {d : Domain} {x : Char}

theorem RaggedText.toList_fill (x : Char) (t : RaggedText) :
    (t.fill x).toList = t.front ++ x :: t.rest.map (CodePoint.fill x) := by
  rw [fill, codePoints, String.toList_ofList, List.map_append, List.map_map, List.map_cons]
  have hfront : t.front.map (CodePoint.fill x ∘ .char) = t.front := List.map_id _
  rw [hfront]
  rfl

/-! ## Tokens -/

theorem eq_false_of_dropWhile {α : Type} {p : α → Bool} {as bs : List α} {b : α}
    (h : as.dropWhile p = b :: bs) : p b = false := by
  have hhead := List.head?_dropWhile_not p as
  rw [h] at hhead
  exact hhead

section Tokens

variable {u cs rest : List Char}

theorem tokens_of_run (hne : u ≠ []) (hu : ∀ c ∈ u, isBlank c = false) (cs : List Char) :
    tokens (u ++ cs) =
      (u ++ cs.takeWhile (!isBlank ·)) :: tokens (cs.dropWhile (!isBlank ·)) := by
  have hrun : ∀ c ∈ u ++ cs.takeWhile (!isBlank ·), isBlank c = false := by
    intro c hc
    rcases List.mem_append.1 hc with hc | hc
    · exact hu c hc
    · simpa using List.all_eq_true.1 List.all_takeWhile c hc
  have hne' : u ++ cs.takeWhile (!isBlank ·) ≠ [] := by simp [hne]
  conv => lhs; rw [← List.takeWhile_append_dropWhile (p := (!isBlank ·)) (l := cs)]
  rw [← List.append_assoc]
  cases hdrop : cs.dropWhile (!isBlank ·) with
  | nil => rw [List.append_nil, tokens_of_not_blank hne' hrun, tokens]
  | cons b ds =>
    have hb : isBlank b = true := by simpa using eq_false_of_dropWhile hdrop
    rw [tokens_append_blank hne' hrun hb, tokens_of_blank hb]

/-- A character that is not blank stands in one token, and the tokens in front of that one are those
    of the text in front of it. -/
theorem tokens_append_cons (hx : isBlank x = false) (cs rest : List Char) :
    tokens (cs ++ x :: rest) =
      tokens (trimEnd (!isBlank ·) cs) ++
        ((cs.reverse.takeWhile (!isBlank ·)).reverse ++ x :: rest.takeWhile (!isBlank ·)) ::
          tokens (rest.dropWhile (!isBlank ·)) := by
  have hrun : tokens ((cs.reverse.takeWhile (!isBlank ·)).reverse ++ x :: rest) =
      ((cs.reverse.takeWhile (!isBlank ·)).reverse ++ x :: rest.takeWhile (!isBlank ·)) ::
        tokens (rest.dropWhile (!isBlank ·)) := by
    have hchars : ∀ c ∈ (cs.reverse.takeWhile (!isBlank ·)).reverse ++ [x],
        isBlank c = false := by
      intro c hc
      rcases List.mem_append.1 hc with hc | hc
      · simpa using List.all_eq_true.1 List.all_takeWhile c (List.mem_reverse.1 hc)
      · rwa [List.mem_singleton.1 hc]
    have := tokens_of_run (by simp) hchars rest
    simpa using this
  have hcut : cs = trimEnd (!isBlank ·) cs ++ (cs.reverse.takeWhile (!isBlank ·)).reverse := by
    rw [trimEnd, ← List.reverse_append, List.takeWhile_append_dropWhile, List.reverse_reverse]
  conv => lhs; rw [hcut, List.append_assoc]
  cases hdrop : cs.reverse.dropWhile (!isBlank ·) with
  | nil =>
    rw [trimEnd, hdrop, List.reverse_nil, List.nil_append, hrun]
    rfl
  | cons b ds =>
    have hb : isBlank b = true := by simpa using eq_false_of_dropWhile hdrop
    rw [trimEnd, hdrop, List.reverse_cons, tokens_concat_blank hb, List.append_assoc,
      List.singleton_append, tokens_append_of_blank hb, hrun]

end Tokens

theorem isBlank_of_ge (hx : 0x80 ≤ x.toNat) : isBlank x = false := by
  cases hb : isBlank x with
  | false => rfl
  | true =>
    simp only [isBlank, Bool.or_eq_true, beq_iff_eq] at hb
    rcases hb with ((((rfl | rfl) | rfl) | rfl) | rfl) | rfl <;> exact absurd hx (by decide)

theorem isBlank_fill (hx : 0x80 ≤ x.toNat) (p : CodePoint) :
    isBlank (p.fill x) = p.separates := by
  cases p with
  | char c => rfl
  | half u => exact isBlank_of_ge hx

/-- The token with the first half is found where it is looked for. -/
theorem RaggedText.tokenize_fill (hx : 0x80 ≤ x.toNat) (t : RaggedText) :
    ∃ more, tokenize (t.fill x) = t.tokensBefore ++ t.token.fill x :: more := by
  have htake : (t.rest.map (CodePoint.fill x)).takeWhile (!isBlank ·) =
      (t.rest.takeWhile (!·.separates)).map (CodePoint.fill x) := by
    rw [List.takeWhile_map]
    simp only [Function.comp_def, isBlank_fill hx]
  have htoken : String.ofList ((t.front.reverse.takeWhile (!isBlank ·)).reverse ++
      x :: (t.rest.takeWhile (!·.separates)).map (CodePoint.fill x)) = t.token.fill x := by
    rw [← String.toList_inj, toList_fill, String.toList_ofList]
    rfl
  rw [tokenize, toList_fill, tokens_append_cons (isBlank_of_ge hx), htake, List.map_append,
    List.map_cons, htoken]
  exact ⟨_, rfl⟩

/-! ## The refused token -/

section Token

variable {cs s e : List Char}

theorem isNumberChar_of_ge (hx : 0x80 ≤ x.toNat) : isNumberChar x = false := by
  cases h : isNumberChar x with
  | false => rfl
  | true =>
    have := (toNat_of_isLiteralChar (isLiteralChar_of_isNumberChar h)).2
    omega

theorem DecimalLiteral.read?_of_mem (hx : 0x80 ≤ x.toNat) (hmem : x ∈ cs) :
    read? cs = none := by
  cases h : read? cs with
  | none => rfl
  | some l =>
    have hchar := isNumberChar_of_read? h hmem
    rw [isNumberChar_of_ge hx] at hchar
    cases hchar

theorem IntervalLiteral.ofTexts_of_mem (hx : 0x80 ≤ x.toNat) (hmem : x ∈ s ∨ x ∈ e) :
    ofTexts s e =
      .error (.format (if s.isEmpty || e.isEmpty then .emptyBound else .boundsNotIntegers)) := by
  have hform : (!Decimal.isInteger s || !Decimal.isInteger e) = true := by
    by_contra hform
    simp only [Bool.or_eq_true, Bool.not_eq_true', not_or, Bool.not_eq_false] at hform
    have hchar : isNumberChar x = true :=
      hmem.elim (isNumberChar_of_isInteger hform.1) (isNumberChar_of_isInteger hform.2)
    rw [isNumberChar_of_ge hx] at hchar
    cases hchar
  rw [ofTexts, if_pos hform]
  split <;> rfl

end Token

namespace RaggedText

theorem mem_fill (x : Char) (t : RaggedText) : x ∈ (t.fill x).toList := by
  rw [toList_fill]
  exact List.mem_append_right _ List.mem_cons_self

theorem fill_eq_comma_iff (hx : 0x80 ≤ x.toNat) {p : CodePoint} :
    p.fill x = ',' ↔ p = .char ',' := by
  have hne : x ≠ ',' := by
    rintro rfl
    exact absurd hx (by decide)
  cases p with
  | char c => simp [CodePoint.fill]
  | half u => simp [CodePoint.fill, hne]

/-- The comma, its repetition and the bounds are found where they are looked for. -/
theorem read_fill (hx : 0x80 ≤ x.toNat) (t : RaggedText) :
    IntervalLiteral.read (t.fill x).toList = .error (.format t.intervalFault) := by
  have hchars : (t.fill x).toList = t.codePoints.map (CodePoint.fill x) := String.toList_ofList
  have hpred : (· != ',') ∘ CodePoint.fill x = (· != .char ',') := by
    funext p
    rw [Bool.eq_iff_iff, bne_iff_ne, Function.comp_apply, bne_iff_ne, Ne, fill_eq_comma_iff hx]
  have hmem := t.mem_fill x
  rw [hchars, ← List.takeWhile_append_dropWhile (p := (· != .char ',')) (l := t.codePoints),
    List.map_append, List.mem_append] at hmem
  rw [IntervalLiteral.read, intervalFault, hchars, List.takeWhile_map, List.dropWhile_map, hpred]
  cases hdrop : t.codePoints.dropWhile (· != .char ',') with
  | nil => rfl
  | cons p rest =>
    have hp : p = .char ',' := by simpa using eq_false_of_dropWhile hdrop
    have hcontains : (rest.map (CodePoint.fill x)).contains ',' = rest.contains (.char ',') := by
      rw [Bool.eq_iff_iff, List.contains_iff_mem, List.contains_iff_mem, List.mem_map]
      simp only [fill_eq_comma_iff hx, exists_eq_right]
    have hbounds : x ∈ (t.codePoints.takeWhile (· != .char ',')).map (CodePoint.fill x) ∨
        x ∈ rest.map (CodePoint.fill x) := by
      rw [hdrop, List.map_cons, List.mem_cons] at hmem
      refine hmem.imp_right fun hmem => hmem.resolve_left fun heq => ?_
      rw [(fill_eq_comma_iff hx).2 hp] at heq
      rw [heq] at hx
      exact absurd hx (by decide)
    rw [List.map_cons]
    dsimp only
    rw [hcontains, IntervalLiteral.ofTexts_of_mem hx hbounds, List.isEmpty_map, List.isEmpty_map]
    split
    · rfl
    · rfl

theorem readLiteral_fill (hx : 0x80 ≤ x.toNat) (t : RaggedText) (position : Nat) :
    readLiteral d (t.fill x) position =
      .error (.syntaxError (.badLiteral (t.literalError d) (t.fill x) position)) := by
  cases d with
  | arithmetic =>
    show readNumber _ _ = _
    rw [readNumber, DecimalLiteral.read?_of_mem hx (t.mem_fill x)]
    rfl
  | interval =>
    show readInterval _ _ = _
    rw [readInterval, read_fill hx]
    rfl

theorem ofSymbolIn?_fill (hx : 0x80 ≤ x.toNat) (t : RaggedText) :
    Operator.ofSymbolIn? d (t.fill x) = none := by
  rw [Operator.ofSymbolIn?_eq_none_iff]
  intro hmem
  obtain ⟨op, -, hop⟩ := Operator.mem_symbolsOf_iff.1 hmem
  have hx' := t.mem_fill x
  rw [← hop, Operator.symbol, String.toList_ofList, List.mem_singleton] at hx'
  rw [hx'] at hx
  revert hx
  cases op <;> decide

end RaggedText

/-! ## Reading -/

/-- A ragged text is refused as the text with a character beyond ASCII in place of every half. -/
theorem RaggedText.read_fill_eq_error (hx : 0x80 ≤ x.toNat) (d : Domain) (t : RaggedText) :
    Expression.read d (t.fill x) = .error ((t.failure d).fill x) := by
  obtain ⟨more, hmore⟩ := t.tokenize_fill hx
  have hread : Expression.read d (t.fill x) = do
      let root ← readTree d (tokenize (t.fill x))
      return ⟨d, root, trimText isBlank (t.fill x)⟩ := by
    unfold Expression.read
    split
    · next hnil =>
      rw [hmore] at hnil
      cases (List.append_eq_nil_iff.1 hnil).2
    · rfl
  rw [hread, hmore, readTree, readTokens_append, failure]
  cases hbefore : readTokens d 0 t.tokensBefore [] with
  | error f => rfl
  | ok stack =>
    rw [ok_bind, readTokens, readToken, ofSymbolIn?_fill hx, Nat.zero_add]
    dsimp only
    rw [readLiteral_fill hx]
    rfl

end ReversePolish
