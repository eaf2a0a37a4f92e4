import ReversePolish.Proofs.ErrorText
import ReversePolish.Proofs.IntervalText
import ReversePolish.Proofs.LiteralValue

set_option autoImplicit false

/-! # The value of an interval literal

What an interval literal is gets said by a grammar: two integers of 32 bits with one comma between
them, the first not above the second. Everything that can be wrong with its format gets said by a
condition of its own, which looks at the parts between the commas and at nothing else. A token is
read as the interval with the bounds that it denotes, or it is refused: for the order of its bounds
if they are the only thing wrong with it, and otherwise for the first condition on the list that
holds. So the checks that are made when an interval is put together never fail for anything but the
order. -/

namespace ReversePolish

variable {cs a b : List Char} {i s e : Int}

namespace IntervalLiteral

/-! ## The grammar -/

/-- The text is an optional sign and one digit or more, and it denotes the integer. -/
inductive WritesInteger : List Char → Int → Prop where
  | integer {sign ds : List Char} {negative : Bool}
      (sign_text : DecimalLiteral.WritesSign sign negative)
      (digits : Decimal.isNumeral ds = true) :
      WritesInteger (sign ++ ds)
        (if negative then -(Decimal.value ds : Int) else Decimal.value ds)

/-- The parts of the text between its commas are two, and they denote integers of 32 bits. -/
inductive WritesBounds (cs : List Char) (s e : Int) : Prop where
  | bounds {a b : List Char} (parts : cs.splitOn ',' = [a, b]) (start_text : WritesInteger a s)
      (stop_text : WritesInteger b e) (start_range : minBound ≤ s ∧ s ≤ maxBound)
      (stop_range : minBound ≤ e ∧ e ≤ maxBound) : WritesBounds cs s e

theorem writesInteger_iff :
    WritesInteger cs i ↔ Decimal.isInteger cs = true ∧ Decimal.intValue cs = i := by
  constructor
  · rintro ⟨hsign, hds⟩
    have hsplit := DecimalLiteral.splitSign_append_eq hsign (Decimal.splitSign_of_isNumeral hds)
    rw [Decimal.isInteger, Decimal.intValue, hsplit]
    exact ⟨hds, rfl⟩
  · rintro ⟨hinteger, rfl⟩
    obtain ⟨sign, htext, hsign⟩ := DecimalLiteral.exists_writesSign cs
    have hwrites := WritesInteger.integer hsign hinteger
    rw [← htext] at hwrites
    exact hwrites

theorem exists_writesInteger_iff : (∃ i, WritesInteger cs i) ↔ Decimal.isInteger cs = true := by
  simp only [writesInteger_iff, exists_and_left, exists_eq', and_true]

instance (cs : List Char) : Decidable (∃ i, WritesInteger cs i) :=
  decidable_of_iff _ exists_writesInteger_iff.symm

/-- The text denotes an integer that does not fit into 32 bits. -/
def WritesTooLarge (cs : List Char) : Prop :=
  ∃ i, WritesInteger cs i ∧ ¬ (minBound ≤ i ∧ i ≤ maxBound)

theorem writesTooLarge_iff :
    WritesTooLarge cs ↔ Decimal.isInteger cs = true ∧
      ¬ (minBound ≤ Decimal.intValue cs ∧ Decimal.intValue cs ≤ maxBound) := by
  simp only [WritesTooLarge, writesInteger_iff, and_assoc, exists_and_left, exists_eq_left']

instance (cs : List Char) : Decidable (WritesTooLarge cs) :=
  decidable_of_iff _ writesTooLarge_iff.symm

end IntervalLiteral

/-! ## What can be wrong with the format -/

namespace IntervalFault

open IntervalLiteral (WritesInteger WritesTooLarge)

/-- The text has the fault, whatever else is wrong with it. -/
def AppliesTo (cs : List Char) : IntervalFault → Prop
  | missingComma => cs.count ',' = 0
  | moreThanOneComma => 1 < cs.count ','
  | emptyBound => [] ∈ cs.splitOn ','
  | boundsNotIntegers => ∃ part ∈ cs.splitOn ',', ¬ ∃ i, WritesInteger part i
  | boundOutOfRange => ∃ part ∈ cs.splitOn ',', WritesTooLarge part

instance (cs : List Char) : DecidablePred (AppliesTo cs)
  | missingComma => inferInstanceAs (Decidable (cs.count ',' = 0))
  | moreThanOneComma => inferInstanceAs (Decidable (1 < cs.count ','))
  | emptyBound => inferInstanceAs (Decidable ([] ∈ cs.splitOn ','))
  | boundsNotIntegers =>
    inferInstanceAs (Decidable (∃ part ∈ cs.splitOn ',', ¬ ∃ i, WritesInteger part i))
  | boundOutOfRange => inferInstanceAs (Decidable (∃ part ∈ cs.splitOn ',', WritesTooLarge part))

/-- All faults, in the order in which they count. -/
def byPrecedence : List IntervalFault :=
  [missingComma, moreThanOneComma, emptyBound, boundsNotIntegers, boundOutOfRange]

/-- The first fault that the text has. -/
def first? (cs : List Char) : Option IntervalFault :=
  byPrecedence.find? fun fault => AppliesTo cs fault

variable {fault : IntervalFault}

theorem first?_eq_some (before after : List IntervalFault)
    (hsplit : byPrecedence = before ++ fault :: after) (happlies : AppliesTo cs fault)
    (hbefore : ∀ other ∈ before, ¬ AppliesTo cs other) : first? cs = some fault := by
  refine List.find?_eq_some_iff_append.2 ⟨decide_eq_true happlies, before, after, hsplit, ?_⟩
  intro other hother
  simpa using hbefore other hother

theorem appliesTo_of_first? (h : first? cs = some fault) : AppliesTo cs fault := by
  have hfound := List.find?_some h
  simpa using hfound

theorem first?_of_not_mem (h : ',' ∉ cs) : first? cs = some missingComma :=
  first?_eq_some [] _ rfl (List.count_eq_zero.2 h) (List.forall_mem_nil _)

theorem first?_of_mem (hb : ',' ∈ b) :
    first? (a ++ ',' :: b) = some moreThanOneComma := by
  have hpos : 0 < b.count ',' := List.count_pos_iff.2 hb
  have hcount : 1 < (a ++ ',' :: b).count ',' := by
    rw [List.count_append, List.count_cons_self]
    omega
  refine first?_eq_some [missingComma] _ rfl hcount (List.forall_mem_singleton.2 fun h => ?_)
  have hnone : (a ++ ',' :: b).count ',' = 0 := h
  omega

/-! ## One comma -/

section OneComma

variable (ha : ',' ∉ a) (hb : ',' ∉ b)

include ha hb

theorem splitOn_of_comma : (a ++ ',' :: b).splitOn ',' = [a, b] := by
  rw [List.splitOn_append_cons_self_of_not_mem ha, List.splitOn_eq_singleton hb]

/-- One comma is neither too few nor too many. -/
theorem not_appliesTo_of_comma :
    ¬ AppliesTo (a ++ ',' :: b) missingComma ∧ ¬ AppliesTo (a ++ ',' :: b) moreThanOneComma := by
  have hcount : (a ++ ',' :: b).count ',' = 1 := by
    rw [List.count_append, List.count_cons_self, List.count_eq_zero.2 ha, List.count_eq_zero.2 hb]
  simp only [AppliesTo, hcount]
  decide

theorem appliesTo_emptyBound_iff : AppliesTo (a ++ ',' :: b) emptyBound ↔ a = [] ∨ b = [] := by
  rw [AppliesTo, splitOn_of_comma ha hb, List.mem_pair, eq_comm, @eq_comm _ [] b]

theorem appliesTo_boundsNotIntegers_iff :
    AppliesTo (a ++ ',' :: b) boundsNotIntegers ↔
      ¬ (Decimal.isInteger a = true ∧ Decimal.isInteger b = true) := by
  simp only [AppliesTo, splitOn_of_comma ha hb, IntervalLiteral.exists_writesInteger_iff,
    List.exists_mem_cons_iff, List.not_mem_nil, false_and, exists_false, or_false, not_and_or]

theorem appliesTo_boundOutOfRange_iff :
    AppliesTo (a ++ ',' :: b) boundOutOfRange ↔ WritesTooLarge a ∨ WritesTooLarge b := by
  simp only [AppliesTo, splitOn_of_comma ha hb, List.exists_mem_cons_iff, List.not_mem_nil,
    false_and, exists_false, or_false]

/-- Up to the parts themselves nothing is wrong with a text that has one comma. -/
theorem first?_of_comma (before after : List IntervalFault)
    (hsplit : byPrecedence = missingComma :: moreThanOneComma :: (before ++ fault :: after))
    (happlies : AppliesTo (a ++ ',' :: b) fault)
    (hbefore : ∀ other ∈ before, ¬ AppliesTo (a ++ ',' :: b) other) :
    first? (a ++ ',' :: b) = some fault := by
  obtain ⟨hmissing, hseveral⟩ := not_appliesTo_of_comma ha hb
  refine first?_eq_some (missingComma :: moreThanOneComma :: before) after hsplit happlies ?_
  exact List.forall_mem_cons.2 ⟨hmissing, List.forall_mem_cons.2 ⟨hseveral, hbefore⟩⟩

theorem first?_of_eq_nil (h : a = [] ∨ b = []) : first? (a ++ ',' :: b) = some emptyBound :=
  first?_of_comma ha hb [] _ rfl ((appliesTo_emptyBound_iff ha hb).2 h) (List.forall_mem_nil _)

theorem first?_of_not_isInteger (hne : ¬ (a = [] ∨ b = []))
    (h : ¬ (Decimal.isInteger a = true ∧ Decimal.isInteger b = true)) :
    first? (a ++ ',' :: b) = some boundsNotIntegers := by
  have hempty : ¬ AppliesTo (a ++ ',' :: b) emptyBound := by
    rwa [appliesTo_emptyBound_iff ha hb]
  exact first?_of_comma ha hb [emptyBound] _ rfl ((appliesTo_boundsNotIntegers_iff ha hb).2 h)
    (List.forall_mem_singleton.2 hempty)

theorem first?_of_writesTooLarge (hs : WritesInteger a s) (he : WritesInteger b e)
    (h : WritesTooLarge a ∨ WritesTooLarge b) :
    first? (a ++ ',' :: b) = some boundOutOfRange := by
  have hintegers := And.intro (IntervalLiteral.writesInteger_iff.1 hs).1
    (IntervalLiteral.writesInteger_iff.1 he).1
  have hempty : ¬ AppliesTo (a ++ ',' :: b) emptyBound := by
    rw [appliesTo_emptyBound_iff ha hb]
    rintro (rfl | rfl)
    · cases hintegers.1
    · cases hintegers.2
  have hform : ¬ AppliesTo (a ++ ',' :: b) boundsNotIntegers := by
    rw [appliesTo_boundsNotIntegers_iff ha hb]
    exact not_not_intro hintegers
  exact first?_of_comma ha hb [emptyBound, boundsNotIntegers] _ rfl
    ((appliesTo_boundOutOfRange_iff ha hb).2 h)
    (List.forall_mem_cons.2 ⟨hempty, List.forall_mem_singleton.2 hform⟩)

end OneComma

end IntervalFault

namespace IntervalLiteral

open IntervalFault (first?)

/-! ## What a text comes to -/

/-- What a text comes to as an interval literal. -/
inductive Judged (cs : List Char) : Except IntervalLiteralError Interval → Prop where
  | interval {i : Interval} (bounds : WritesBounds cs i.lower i.upper) : Judged cs (.ok i)
  | startAfterEnd {s e : Int} (bounds : WritesBounds cs s e) (lt : e < s) :
      Judged cs (.error .startAfterEnd)
  | format {fault : IntervalFault} (first : first? cs = some fault) :
      Judged cs (.error (.format fault))

theorem inRange_iff {i : Int} : inRange i = true ↔ minBound ≤ i ∧ i ≤ maxBound := by
  rw [inRange, Bool.and_eq_true, decide_eq_true_eq, decide_eq_true_eq]

theorem inRange_eq_false_iff (h : WritesInteger cs i) : inRange i = false ↔ WritesTooLarge cs := by
  obtain ⟨hinteger, rfl⟩ := writesInteger_iff.1 h
  rw [writesTooLarge_iff, ← inRange_iff, Bool.not_eq_true]
  exact ⟨fun hrange => ⟨hinteger, hrange⟩, fun hrange => hrange.2⟩

/-- Bounds in range are put together to an interval unless they are in the wrong order. -/
theorem ofIntegers_of_inRange (hs : inRange s = true) (he : inRange e = true) :
    (∃ i : Interval, i.lower = s ∧ i.upper = e ∧ ofIntegers s e = .ok i) ∨
      (e < s ∧ ofIntegers s e = .error .startAfterEnd) := by
  rw [ofIntegers, if_pos (by rw [hs, he]; rfl)]
  rw [inRange_iff] at hs he
  rcases Int.lt_or_le e s with hlt | hle
  · have hnone : Interval.ofBounds? s e = none := dif_neg (by omega)
    rw [hnone]
    exact .inr ⟨hlt, rfl⟩
  · have hsome : Interval.ofBounds? s e = some ⟨s, e, hs.1, hle, he.2⟩ :=
      Interval.ofBounds?_eq_some_iff.2 ⟨rfl, rfl⟩
    rw [hsome]
    exact .inl ⟨_, rfl, rfl, rfl⟩

theorem judged_ofIntegers (ha : ',' ∉ a) (hb : ',' ∉ b) (hs : WritesInteger a s)
    (he : WritesInteger b e) : Judged (a ++ ',' :: b) (ofIntegers s e) := by
  by_cases hrange : inRange s = true ∧ inRange e = true
  · have hbounds : WritesBounds (a ++ ',' :: b) s e :=
      .bounds (IntervalFault.splitOn_of_comma ha hb) hs he (inRange_iff.1 hrange.1)
        (inRange_iff.1 hrange.2)
    rcases ofIntegers_of_inRange hrange.1 hrange.2 with ⟨i, rfl, rfl, hi⟩ | ⟨hlt, hi⟩
    · rw [hi]
      exact .interval hbounds
    · rw [hi]
      exact .startAfterEnd hbounds hlt
  · have hlarge : WritesTooLarge a ∨ WritesTooLarge b := by
      rw [← inRange_eq_false_iff hs, ← inRange_eq_false_iff he]
      simpa only [not_and_or, Bool.not_eq_true] using hrange
    have hfails : ofIntegers s e = .error (.format .boundOutOfRange) :=
      if_neg (by simpa only [Bool.and_eq_true] using hrange)
    rw [hfails]
    exact .format (IntervalFault.first?_of_writesTooLarge ha hb hs he hlarge)

theorem judged_ofTexts (ha : ',' ∉ a) (hb : ',' ∉ b)
    (hshort : ∀ part ∈ [a, b], part.countP Char.isDigit ≤ Decimal.maxDigits) :
    Judged (a ++ ',' :: b) (ofTexts a b) := by
  by_cases hempty : a = [] ∨ b = []
  · have hfails : ofTexts a b = .error (.format .emptyBound) :=
      if_pos (by simpa only [Bool.or_eq_true, List.isEmpty_iff] using hempty)
    rw [hfails]
    exact .format (IntervalFault.first?_of_eq_nil ha hb hempty)
  · by_cases hintegers : Decimal.isInteger a = true ∧ Decimal.isInteger b = true
    · rw [ofTexts_of_isInteger hintegers.1 hintegers.2,
        convert_of_le hintegers.1 (hshort a (by simp)), ok_bind,
        convert_of_le hintegers.2 (hshort b (by simp)), ok_bind]
      exact judged_ofIntegers ha hb (writesInteger_iff.2 ⟨hintegers.1, rfl⟩)
        (writesInteger_iff.2 ⟨hintegers.2, rfl⟩)
    · have hfails : ofTexts a b = .error (.format .boundsNotIntegers) := by
        rw [ofTexts, if_neg (by simpa only [Bool.or_eq_true, List.isEmpty_iff] using hempty)]
        refine if_pos ?_
        simpa only [Bool.or_eq_true, Bool.not_eq_true', ← Bool.not_eq_true, ← not_and_or]
          using hintegers
      rw [hfails]
      exact .format (IntervalFault.first?_of_not_isInteger ha hb hempty hintegers)

/-- Where no part is too long to be converted, a text is read as what it comes to. -/
theorem judged_read
    (hshort : ∀ part ∈ cs.splitOn ',', part.countP Char.isDigit ≤ Decimal.maxDigits) :
    Judged cs (read cs) := by
  rcases read_cases cs with ⟨hnone, hread⟩ | ⟨a, b, rfl, ha, hb, hread⟩ | ⟨a, b, rfl, ha, hb, hread⟩
  · rw [hread]
    exact .format (IntervalFault.first?_of_not_mem hnone)
  · rw [hread]
    exact .format (IntervalFault.first?_of_mem hb)
  · rw [hread]
    rw [IntervalFault.splitOn_of_comma ha hb] at hshort
    exact judged_ofTexts ha hb hshort

/-! ## A text comes to one thing -/

theorem WritesInteger.unique {i j : Int} (hi : WritesInteger cs i) (hj : WritesInteger cs j) :
    i = j := by
  rw [← (writesInteger_iff.1 hi).2, ← (writesInteger_iff.1 hj).2]

theorem WritesBounds.unique {s' e' : Int} (h : WritesBounds cs s e) (h' : WritesBounds cs s' e') :
    s = s' ∧ e = e' := by
  obtain ⟨parts, hs, he, -, -⟩ := h
  obtain ⟨parts', hs', he', -, -⟩ := h'
  rw [parts, List.cons.injEq, List.cons.injEq] at parts'
  obtain ⟨rfl, rfl, -⟩ := parts'
  exact ⟨hs.unique hs', he.unique he'⟩

/-- Nothing is wrong with the format of two integers in range. -/
theorem WritesBounds.first?_ne_some (h : WritesBounds cs s e) (fault : IntervalFault) :
    first? cs ≠ some fault := by
  obtain @⟨a, b, parts, hs, he, hsrange, herange⟩ := h
  obtain ⟨hainteger, -⟩ := writesInteger_iff.1 hs
  obtain ⟨hbinteger, -⟩ := writesInteger_iff.1 he
  have ha := comma_not_mem_of_isInteger hainteger
  have hb := comma_not_mem_of_isInteger hbinteger
  have htext : cs = a ++ ',' :: b := by
    have hjoined : [','].intercalate (cs.splitOn ',') = cs := List.intercalate_splitOn ','
    rw [parts] at hjoined
    simpa using hjoined.symm
  subst htext
  intro hfirst
  have happlies := IntervalFault.appliesTo_of_first? hfirst
  cases fault with
  | missingComma => exact (IntervalFault.not_appliesTo_of_comma ha hb).1 happlies
  | moreThanOneComma => exact (IntervalFault.not_appliesTo_of_comma ha hb).2 happlies
  | emptyBound =>
    rcases (IntervalFault.appliesTo_emptyBound_iff ha hb).1 happlies with rfl | rfl
    · cases hainteger
    · cases hbinteger
  | boundsNotIntegers =>
    exact (IntervalFault.appliesTo_boundsNotIntegers_iff ha hb).1 happlies ⟨hainteger, hbinteger⟩
  | boundOutOfRange =>
    rcases (IntervalFault.appliesTo_boundOutOfRange_iff ha hb).1 happlies with
      ⟨i, hi, hout⟩ | ⟨i, hi, hout⟩
    · rw [hi.unique hs] at hout
      exact hout hsrange
    · rw [hi.unique he] at hout
      exact hout herange

theorem Judged.unique {x y : Except IntervalLiteralError Interval} (hx : Judged cs x)
    (hy : Judged cs y) : x = y := by
  have hordered : ∀ {i : Interval} {s e : Int}, WritesBounds cs i.lower i.upper →
      WritesBounds cs s e → ¬ e < s := by
    intro i s e hi hse
    obtain ⟨rfl, rfl⟩ := hi.unique hse
    exact Int.not_lt.2 i.lower_le_upper
  cases hx with
  | interval hi =>
    cases hy with
    | interval hj =>
      obtain ⟨hlower, hupper⟩ := hi.unique hj
      rw [Interval.eq_of_bounds hlower hupper]
    | startAfterEnd hse hlt => exact absurd hlt (hordered hi hse)
    | format hfirst => exact absurd hfirst (hi.first?_ne_some _)
  | startAfterEnd hse hlt =>
    cases hy with
    | interval hi => exact absurd hlt (hordered hi hse)
    | startAfterEnd => rfl
    | format hfirst => exact absurd hfirst (hse.first?_ne_some _)
  | format hfirst =>
    cases hy with
    | interval hi => exact absurd hfirst (hi.first?_ne_some _)
    | startAfterEnd hse => exact absurd hfirst (hse.first?_ne_some _)
    | format hfirst' => rw [Option.some.inj (hfirst.symm.trans hfirst')]

theorem read_eq_iff_judged
    (hshort : ∀ part ∈ cs.splitOn ',', part.countP Char.isDigit ≤ Decimal.maxDigits)
    {x : Except IntervalLiteralError Interval} : read cs = x ↔ Judged cs x := by
  constructor
  · rintro rfl
    exact judged_read hshort
  · exact (judged_read hshort).unique

end IntervalLiteral

/-! ## Tokens -/

open IntervalLiteral (WritesBounds Judged)

section Tokens

variable (token : String) (position : Nat)

/-- The token is refused with an error of that kind, which carries it and its position. The words
    stand around its place. -/
def IntervalRefusedAs (kind : SyntaxError.Kind) (front back : String) : Prop :=
  ∃ e, readInterval token position = .error (.syntaxError e) ∧
    e.issue = ⟨kind, front ++ SyntaxError.place token position ++ back, some token, some position,
      none⟩

/-- The error for a format, with the reason in brackets. -/
def RefusedForFormat (fault : IntervalFault) : Prop :=
  IntervalRefusedAs token position .invalidOperand "Invalid interval format"
    (" (" ++ fault.reason ++ ")")

/-- The error for the order of the bounds. -/
def RefusedForOrder : Prop :=
  IntervalRefusedAs token position .invalidInterval "Invalid interval" " (start > end)"

variable {token position}

theorem SyntaxError.issue_badLiteral (a : LiteralError) :
    (badLiteral a token position).issue =
      ⟨(badLiteral a token position).kind, front a ++ place token position ++ back a, some token,
        some position, none⟩ := by
  rw [issue, message_badLiteral, ← String.append_assoc]
  rfl

theorem refusedForFormat_iff {fault : IntervalFault} :
    RefusedForFormat token position fault ↔
      IntervalLiteral.read token.toList = .error (.format fault) := by
  constructor
  · rintro ⟨e, he, hissue⟩
    unfold readInterval at he
    split at he
    · cases he
    · next fault' hread =>
      cases he
      rw [SyntaxError.issue_badLiteral] at hissue
      have hback := (String.append_right_inj _).1 (congrArg SyntaxError.Issue.message hissue)
      rw [SyntaxError.back, String.append_left_inj, String.append_right_inj] at hback
      rw [hread, IntervalFault.reason_injective hback]
    · cases he
      exact absurd (congrArg SyntaxError.Issue.kind hissue) SyntaxError.Kind.noConfusion
    · cases he
  · intro hread
    exact ⟨.badLiteral (.interval fault) token position, by rw [readInterval, hread],
      SyntaxError.issue_badLiteral _⟩

theorem refusedForOrder_iff :
    RefusedForOrder token position ↔
      IntervalLiteral.read token.toList = .error .startAfterEnd := by
  constructor
  · rintro ⟨e, he, hissue⟩
    unfold readInterval at he
    split at he
    · cases he
    · cases he
      exact absurd (congrArg SyntaxError.Issue.kind hissue) SyntaxError.Kind.noConfusion
    · next hread => exact hread
    · cases he
  · intro hread
    exact ⟨.badLiteral .startAfterEnd token position, by rw [readInterval, hread], rfl⟩

/-- An error of syntax carries the token and its position, whatever it is. -/
theorem carries_token_of_readInterval {failure : ReadingFailure}
    (hshort : ∀ part ∈ token.toList.splitOn ',', part.countP Char.isDigit ≤ Decimal.maxDigits)
    (h : readInterval token position = .error failure) :
    ∃ e, failure = .syntaxError e ∧ e.issue.token? = some token ∧
      e.issue.position? = some position := by
  unfold readInterval at h
  split at h
  · cases h
  · cases h
    exact ⟨_, rfl, rfl, rfl⟩
  · cases h
    exact ⟨_, rfl, rfl, rfl⟩
  · next hread =>
    have hjudged := IntervalLiteral.judged_read hshort
    rw [hread] at hjudged
    cases hjudged

end Tokens

/-- A token whose bounds can be converted is read as the interval between two integers of 32 bits
    in order, with one comma between them. If the order is all that is wrong, then it is refused
    for that; otherwise it is refused for the first thing that is wrong with its format. -/
theorem interval_literals_judged (token : String) (position : Nat)
    (hshort : ∀ part ∈ token.toList.splitOn ',', part.countP Char.isDigit ≤ Decimal.maxDigits) :
    (∀ l, readInterval token position = .ok l ↔
      ∃ s e, WritesBounds token.toList s e ∧ s ≤ e ∧
        ∃ i : Interval, i.lower = s ∧ i.upper = e ∧ l = .interval i) ∧
      (RefusedForOrder token position ↔ ∃ s e, WritesBounds token.toList s e ∧ e < s) ∧
      ((∃ fault, RefusedForFormat token position fault) ↔
        ¬ ∃ s e, WritesBounds token.toList s e) ∧
      (∀ fault, RefusedForFormat token position fault ↔
        IntervalFault.first? token.toList = some fault) ∧
      ∀ failure, readInterval token position = .error failure →
        ∃ e, failure = .syntaxError e ∧ e.issue.token? = some token ∧
          e.issue.position? = some position := by
  have hread : ∀ {x}, IntervalLiteral.read token.toList = x ↔ Judged token.toList x :=
    IntervalLiteral.read_eq_iff_judged hshort
  refine ⟨fun l => ?_, ?_, ?_, fun fault => ?_, fun failure => carries_token_of_readInterval hshort⟩
  · simp only [readInterval_eq_ok_iff, hread]
    constructor
    · rintro ⟨i, hjudged, rfl⟩
      cases hjudged with
      | interval hbounds => exact ⟨_, _, hbounds, i.lower_le_upper, i, rfl, rfl, rfl⟩
    · rintro ⟨s, e, hbounds, -, i, rfl, rfl, rfl⟩
      exact ⟨i, .interval hbounds, rfl⟩
  · rw [refusedForOrder_iff, hread]
    constructor
    · intro hjudged
      cases hjudged with
      | startAfterEnd hbounds hlt => exact ⟨_, _, hbounds, hlt⟩
    · rintro ⟨s, e, hbounds, hlt⟩
      exact .startAfterEnd hbounds hlt
  · simp only [refusedForFormat_iff, hread]
    constructor
    · rintro ⟨fault, hjudged⟩ ⟨s, e, hbounds⟩
      cases hjudged with
      | format hfirst => exact hbounds.first?_ne_some fault hfirst
    · intro hnone
      have hjudged := IntervalLiteral.judged_read hshort
      generalize IntervalLiteral.read token.toList = x at hjudged
      cases hjudged with
      | interval hbounds => exact absurd ⟨_, _, hbounds⟩ hnone
      | startAfterEnd hbounds => exact absurd ⟨_, _, hbounds⟩ hnone
      | format hfirst => exact ⟨_, .format hfirst⟩
  · rw [refusedForFormat_iff, hread]
    constructor
    · intro hjudged
      cases hjudged with
      | format hfirst => exact hfirst
    · exact .format

/-- The largest bound before the smallest one is in the wrong order and nothing else. -/
theorem largest_to_smallest_refused_for_order :
    (∀ part ∈ "2147483647,-2147483648".toList.splitOn ',',
      part.countP Char.isDigit ≤ Decimal.maxDigits) ∧
      RefusedForOrder "2147483647,-2147483648" 3 := by
  refine ⟨by decide, (interval_literals_judged "2147483647,-2147483648" 3 (by decide)).2.1.2 ?_⟩
  have hparts : "2147483647,-2147483648".toList.splitOn ',' =
      ["2147483647".toList, "-2147483648".toList] := by decide
  have hstart : IntervalLiteral.WritesInteger "2147483647".toList 2147483647 :=
    IntervalLiteral.writesInteger_iff.2 (by decide)
  have hstop : IntervalLiteral.WritesInteger "-2147483648".toList (-2147483648) :=
    IntervalLiteral.writesInteger_iff.2 (by decide)
  exact ⟨_, _, .bounds hparts hstart hstop (by decide) (by decide), by decide⟩

/-- A text with two commas between integers and an empty bound has one comma too many first. -/
example : IntervalFault.first? "1,,b".toList = some .moreThanOneComma := by decide

end ReversePolish
