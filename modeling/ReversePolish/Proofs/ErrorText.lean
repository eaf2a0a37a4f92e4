import ReversePolish.Proofs.Numeral
import ReversePolish.Proofs.QuotedText
import ReversePolish.SyntaxError

set_option autoImplicit false

/-! # The wording of an error tells the error

What a run writes about a text that is no expression names the kind of the error in brackets and
then gives its message. The message has the token between quotes and every number before a
character that is no digit, so the token, the numbers and the reason are found in it again. This
holds on every channel, since only the quoted token can have characters that are spelled out. -/

namespace ReversePolish

variable {s : Charset}

/-- What stands in front of a mark ends at the first one. -/
theorem append_cons_inj_of_not_mem {c : Char} {cs cs' rest rest' : List Char} (hcs : c ∉ cs)
    (hcs' : c ∉ cs') (h : cs ++ c :: rest = cs' ++ c :: rest') : cs = cs' ∧ rest = rest' := by
  induction cs generalizing cs' with
  | nil =>
    cases cs' with
    | nil => exact ⟨rfl, (List.cons.inj h).2⟩
    | cons d cs' => exact absurd ((List.cons.inj h).1 ▸ List.mem_cons_self) hcs'
  | cons d cs ih =>
    cases cs' with
    | nil => exact absurd ((List.cons.inj h).1 ▸ List.mem_cons_self) hcs
    | cons d' cs' =>
      obtain ⟨rfl, htail⟩ := List.cons.inj h
      obtain ⟨rfl, hrest⟩ := ih (fun hc => hcs (List.mem_cons_of_mem _ hc))
        (fun hc => hcs' (List.mem_cons_of_mem _ hc)) htail
      exact ⟨rfl, hrest⟩

theorem toNat_lt_of_all {cs : List Char} (h : (cs.all fun c => c.toNat < 0x80) = true) :
    ∀ c ∈ cs, c.toNat < 0x80 := by
  simpa only [List.all_eq_true, decide_eq_true_eq] using h

/-! ## Numbers -/

namespace Decimal

theorem toNat_lt_of_isDigit {c : Char} (h : c.isDigit = true) : c.toNat < 0x80 := by
  simp only [Char.isDigit, Bool.and_eq_true, decide_eq_true_eq] at h
  have hle : c.val.toNat ≤ 57 := UInt32.le_iff_toNat_le.1 h.2
  exact Nat.lt_of_le_of_lt hle (by decide)

theorem spell_natText (n : Nat) : s.spell (natText n).toList = digits n := by
  rw [natText, String.toList_ofList]
  exact Charset.spell_of_ascii fun c hc => toNat_lt_of_isDigit (isDigit_of_mem_digits hc)

/-- A number ends at the first character that is no digit. -/
theorem digits_append_cons_inj {m n : Nat} {c : Char} (hc : c.isDigit = false)
    {rest rest' : List Char} (h : digits m ++ c :: rest = digits n ++ c :: rest') :
    m = n ∧ rest = rest' := by
  have hnot : ∀ k, c ∉ digits k := by
    intro k hmem
    rw [isDigit_of_mem_digits hmem] at hc
    cases hc
  obtain ⟨hdigits, hrest⟩ := append_cons_inj_of_not_mem (hnot m) (hnot n) h
  refine ⟨?_, hrest⟩
  rw [← value_digits m, hdigits, value_digits]

end Decimal

/-! ## Messages -/

namespace IntervalFault

theorem reason_injective : Function.Injective reason := by
  intro f g h
  cases f <;> cases g <;> first | rfl | exact absurd h (by decide)

end IntervalFault

namespace SyntaxError

/-- The place of a token tells the position and the token, and where it ends. -/
theorem spell_place_append_inj {t t' : String} {p p' : Nat} {rest rest' : List Char}
    (h : s.spell (place t p).toList ++ rest = s.spell (place t' p').toList ++ rest') :
    t = t' ∧ p = p' ∧ rest = rest' := by
  have hplace : ∀ t p rest, s.spell (place t p).toList ++ rest =
      " at position ".toList ++ (Decimal.digits p ++ ':' :: ' ' ::
        (s.spell (quoted t).toList ++ rest)) := by
    intro t p rest
    have hfront : s.spell " at position ".toList = " at position ".toList :=
      Charset.spell_of_ascii (toNat_lt_of_all (by decide))
    have hcolon : s.spell ": ".toList = [':', ' '] :=
      Charset.spell_of_ascii (toNat_lt_of_all (by decide))
    simp only [place, placeOfQuoted, String.toList_append, Charset.spell_append,
      Decimal.spell_natText, hfront, hcolon, List.append_assoc, List.cons_append, List.nil_append]
  rw [hplace, hplace] at h
  obtain ⟨hp, h⟩ := Decimal.digits_append_cons_inj rfl (List.append_cancel_left h)
  obtain ⟨ht, hrest⟩ := spell_quoted_append_inj (List.cons.inj h).2
  exact ⟨ht, hp, hrest⟩

/-- The words of a message in front of the place. -/
def front : LiteralError → String
  | .notANumber => "Invalid token"
  | .outOfRange => "Number out of range"
  | .interval _ => "Invalid interval format"
  | .startAfterEnd => "Invalid interval"

/-- The words of a message behind the place. -/
def back : LiteralError → String
  | .notANumber | .outOfRange => ""
  | .interval fault => " (" ++ fault.reason ++ ")"
  | .startAfterEnd => " (start > end)"

theorem message_badLiteral (a : LiteralError) (t : String) (p : Nat) :
    (badLiteral a t p).message = front a ++ (place t p ++ back a) := by
  cases a with
  | notANumber | outOfRange =>
    rw [back, String.append_empty]
    rfl
  | interval fault =>
    rw [back, ← String.append_assoc, ← String.append_assoc, ← String.append_assoc]
    rfl
  | startAfterEnd =>
    rw [← String.append_assoc]
    rfl

theorem toNat_lt_of_mem_front (a : LiteralError) : ∀ c ∈ (front a).toList, c.toNat < 0x80 := by
  cases a with
  | interval =>
    have hwords : ∀ c ∈ "Invalid interval format".toList, c.toNat < 0x80 :=
      toNat_lt_of_all (by decide)
    exact hwords
  | _ => exact toNat_lt_of_all (by decide)

theorem toNat_lt_of_mem_back (a : LiteralError) : ∀ c ∈ (back a).toList, c.toNat < 0x80 := by
  cases a with
  | interval fault => cases fault <;> exact toNat_lt_of_all (by decide)
  | _ => exact toNat_lt_of_all (by decide)

theorem spell_message_badLiteral (a : LiteralError) (t : String) (p : Nat) :
    s.spell (badLiteral a t p).message.toList =
      (front a).toList ++ (s.spell (place t p).toList ++ (back a).toList) := by
  rw [message_badLiteral, String.toList_append, String.toList_append, Charset.spell_append,
    Charset.spell_append, Charset.spell_of_ascii (toNat_lt_of_mem_front a),
    Charset.spell_of_ascii (toNat_lt_of_mem_back a)]

/-- The first words of two messages of one kind tell which of the two causes it may have, and the
    last words tell the rest. -/
theorem cause_of_front_append {a b : LiteralError} {t t' : String} {p p' : Nat}
    (hkind : (badLiteral a t p).kind = (badLiteral b t' p').kind) {rest rest' : List Char}
    (h : (front a).toList ++ rest = (front b).toList ++ rest') :
    front a = front b ∧ (back a = back b → a = b) := by
  have htoken : "Invalid token".toList = 'I' :: "nvalid token".toList := rfl
  have hrange : "Number out of range".toList = 'N' :: "umber out of range".toList := rfl
  cases a with
  | notANumber =>
    cases b with
    | notANumber => exact ⟨rfl, fun _ => rfl⟩
    | outOfRange =>
      rw [front, front, htoken, hrange] at h
      exact absurd (List.cons.inj h).1 (by decide)
    | interval | startAfterEnd => cases hkind
  | outOfRange =>
    cases b with
    | outOfRange => exact ⟨rfl, fun _ => rfl⟩
    | notANumber =>
      rw [front, front, htoken, hrange] at h
      exact absurd (List.cons.inj h).1 (by decide)
    | interval | startAfterEnd => cases hkind
  | interval f =>
    cases b with
    | interval g =>
      refine ⟨rfl, fun hback => ?_⟩
      rw [back, back, String.append_left_inj, String.append_right_inj] at hback
      rw [IntervalFault.reason_injective hback]
    | notANumber | outOfRange | startAfterEnd => cases hkind
  | startAfterEnd =>
    cases b with
    | startAfterEnd => exact ⟨rfl, fun _ => rfl⟩
    | notANumber | outOfRange | interval => cases hkind

/-- A message about a literal tells why, where and which token. -/
theorem badLiteral_inj {a b : LiteralError} {t t' : String} {p p' : Nat}
    (hkind : (badLiteral a t p).kind = (badLiteral b t' p').kind)
    (h : s.spell (badLiteral a t p).message.toList = s.spell (badLiteral b t' p').message.toList) :
    badLiteral a t p = badLiteral b t' p' := by
  rw [spell_message_badLiteral, spell_message_badLiteral] at h
  obtain ⟨hfront, hcause⟩ := cause_of_front_append hkind h
  rw [hfront, List.append_cancel_left_eq] at h
  obtain ⟨rfl, rfl, hback⟩ := spell_place_append_inj h
  rw [hcause (String.toList_injective hback)]

theorem insufficientOperands_inj {t t' : String} {p p' n n' : Nat}
    (h : s.spell (insufficientOperands t p n).message.toList =
      s.spell (insufficientOperands t' p' n').message.toList) :
    insufficientOperands t p n = insufficientOperands t' p' n' := by
  have hneed : s.spell ": need 2, have ".toList = ':' :: " need 2, have ".toList :=
    Charset.spell_of_ascii (toNat_lt_of_all (by decide))
  have hmessage : ∀ t p n, (insufficientOperands t p n).message =
      "Insufficient operands for operator " ++ quoted t ++ " at position " ++
        Decimal.natText p ++ ": need 2, have " ++ Decimal.natText n := fun _ _ _ => rfl
  rw [hmessage, hmessage] at h
  simp only [String.toList_append, Charset.spell_append, List.append_assoc, Decimal.spell_natText,
    hneed, List.append_cancel_left_eq] at h
  obtain ⟨rfl, hplace⟩ := spell_quoted_append_inj h
  simp only [List.cons_append, List.append_cancel_left_eq] at hplace
  obtain ⟨rfl, hcount⟩ := Decimal.digits_append_cons_inj rfl hplace
  rw [← Decimal.value_digits n, List.append_cancel_left hcount, Decimal.value_digits]

theorem tooManyOperands_inj {n n' : Nat}
    (h : s.spell (tooManyOperands n).message.toList = s.spell (tooManyOperands n').message.toList) :
    tooManyOperands n = tooManyOperands n' := by
  have hmessage : ∀ n, (tooManyOperands n).message =
      "Invalid expression: too many operands (" ++ Decimal.natText n ++
        " subtrees left, expected 1)" := fun _ => rfl
  rw [hmessage, hmessage] at h
  simp only [String.toList_append, Charset.spell_append, Decimal.spell_natText,
    List.append_cancel_left_eq, List.append_cancel_right_eq] at h
  rw [← Decimal.value_digits n, h, Decimal.value_digits]

/-- Two errors of one kind with the same message are the same error. -/
theorem eq_of_spell_message {f g : SyntaxError} (hkind : f.kind = g.kind)
    (h : s.spell f.message.toList = s.spell g.message.toList) : f = g := by
  cases f with
  | badLiteral a t p =>
    cases g with
    | badLiteral b t' p' => exact badLiteral_inj hkind h
    | _ => cases a <;> cases hkind
  | emptyExpression =>
    cases g with
    | emptyExpression => rfl
    | badLiteral b => cases b <;> cases hkind
    | _ => cases hkind
  | insufficientOperands t p n =>
    cases g with
    | insufficientOperands t' p' n' => exact insufficientOperands_inj h
    | badLiteral b => cases b <;> cases hkind
    | _ => cases hkind
  | tooManyOperands n =>
    cases g with
    | tooManyOperands n' => exact tooManyOperands_inj h
    | badLiteral b => cases b <;> cases hkind
    | _ => cases hkind
  | noResult =>
    cases g with
    | noResult => rfl
    | badLiteral b => cases b <;> cases hkind
    | _ => cases hkind

/-! ## Reports -/

theorem Kind.name_injective : Function.Injective Kind.name := by
  have hfind : ∀ k : Kind, Kind.all.find? (·.name == k.name) = some k := by
    intro k
    cases k <;> rfl
  intro k k' h
  have hk := hfind k
  rw [h, hfind k'] at hk
  exact (Option.some.inj hk).symm

theorem Kind.spell_name (k : Kind) : s.spell k.name.toList = k.name.toList := by
  refine Charset.spell_of_ascii ?_
  cases k <;> exact toNat_lt_of_all (by decide)

theorem Kind.not_mem_name (k : Kind) : ']' ∉ k.name.toList := by
  cases k <;> decide

/-- What a run writes about a text that is no expression. -/
def report (k : Kind) (message : String) : String :=
  "Błąd parsowania [" ++ k.name ++ "]: " ++ message ++ "\n"

theorem spell_report (k : Kind) (m : String) :
    s.spell (report k m).toList =
      s.spell "Błąd parsowania [".toList ++ (k.name.toList ++ ']' :: (s.spell ": ".toList ++
        (s.spell m.toList ++ s.spell "\n".toList))) := by
  -- the literals are named, since matching compares them character by character
  have hparts : ∀ {front name bracket last : String} {cs ds : List Char},
      s.spell name.toList = cs → s.spell bracket.toList = ']' :: ds →
        s.spell (front ++ name ++ bracket ++ m ++ last).toList =
          s.spell front.toList ++ (cs ++ ']' :: (ds ++
            (s.spell m.toList ++ s.spell last.toList))) := by
    intro front name bracket last cs ds hname hbracket
    simp only [String.toList_append, Charset.spell_append, List.append_assoc, hname, hbracket,
      List.cons_append]
  exact hparts k.spell_name (spell_cons_of_ascii (by decide) ": ".toList)

/-- A report tells the kind and the message. -/
theorem spell_report_inj {k k' : Kind} {m m' : String}
    (h : s.spell (report k m).toList = s.spell (report k' m').toList) :
    k = k' ∧ s.spell m.toList = s.spell m'.toList := by
  rw [spell_report, spell_report, List.append_cancel_left_eq] at h
  obtain ⟨hkind, hrest⟩ := append_cons_inj_of_not_mem k.not_mem_name k'.not_mem_name h
  rw [List.append_cancel_left_eq, List.append_cancel_right_eq] at hrest
  exact ⟨Kind.name_injective (String.toList_injective hkind), hrest⟩

/-- The report of an error tells the error, on every channel. -/
theorem eq_of_spellOut_report {f g : SyntaxError}
    (h : s.spellOut (report f.kind f.message) = s.spellOut (report g.kind g.message)) : f = g := by
  have hlist := congrArg String.toList h
  rw [Charset.toList_spellOut, Charset.toList_spellOut] at hlist
  obtain ⟨hkind, hmessage⟩ := spell_report_inj hlist
  exact eq_of_spell_message hkind hmessage

end SyntaxError

end ReversePolish
