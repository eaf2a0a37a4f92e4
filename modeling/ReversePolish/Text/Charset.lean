import ReversePolish.Text.CodePoint

set_option autoImplicit false

/-! # Character sets

The set of characters that an output channel can carry. A channel that meets a character outside
its set either refuses the text, or writes the character by its code point, or writes a question
mark in its place. -/

namespace ReversePolish

/-- The character sets of an output channel. -/
inductive Charset where
  | utf8
  | ascii
  /-- ISO 8859-3, the South European set. -/
  | latin3
deriving DecidableEq, Repr

namespace Charset

/-- The code points of ISO 8859-3 above the control characters, as ranges. -/
def latin3Ranges : List (Nat × Nat) :=
  [
    (0xa0, 0xa0), (0xa3, 0xa4), (0xa7, 0xa8), (0xad, 0xad), (0xb0, 0xb0), (0xb2, 0xb5),
    (0xb7, 0xb8), (0xbd, 0xbd), (0xc0, 0xc2), (0xc4, 0xc4), (0xc7, 0xcf), (0xd1, 0xd4),
    (0xd6, 0xd7), (0xd9, 0xdc), (0xdf, 0xe2), (0xe4, 0xe4), (0xe7, 0xef), (0xf1, 0xf4),
    (0xf6, 0xf7), (0xf9, 0xfc), (0x108, 0x10b), (0x11c, 0x121), (0x124, 0x127), (0x130, 0x131),
    (0x134, 0x135), (0x15c, 0x15f), (0x16c, 0x16d), (0x17b, 0x17c), (0x2d8, 0x2d9)
  ]

/-- Whether the set has the character. -/
def has : Charset → Char → Bool
  | utf8, _ => true
  | ascii, c => c.toNat < 0x80
  | latin3, c => c.toNat < 0xa0 || latin3Ranges.any fun (a, b) => a ≤ c.toNat && c.toNat ≤ b

/-- Whether the set has every character of the text. -/
def hasAll (s : Charset) (text : String) : Bool :=
  text.toList.all s.has

/-- The text with a question mark for each character outside the set. -/
def replace (s : Charset) (text : String) : String :=
  String.ofList (text.toList.map fun c => if s.has c then c else '?')

/-- The text with each character outside the set written by its code point. -/
def spellOut (s : Charset) (text : String) : String :=
  String.ofList (text.toList.flatMap fun c => if s.has c then [c] else codePointEscape c)

/-- The place and the character of the first one outside the set. -/
def firstOutside? (s : Charset) (text : String) : Option (Nat × Char) :=
  (text.toList.zipIdx.find? fun (c, _) => !s.has c).map fun (c, i) => (i, c)

theorem has_of_ascii (s : Charset) {c : Char} (h : c.toNat < 0x80) : s.has c = true := by
  cases s with
  | utf8 => rfl
  | ascii => simpa [has] using h
  | latin3 =>
    simp only [has, Bool.or_eq_true, decide_eq_true_eq]
    exact .inl (by omega)

/-- What is left after replacing can be carried. -/
theorem hasAll_replace (s : Charset) (text : String) : s.hasAll (s.replace text) = true := by
  simp only [hasAll, replace, String.toList_ofList, List.all_map, List.all_eq_true]
  intro c _
  by_cases h : s.has c = true
  · simp [h]
  · simpa [h] using s.has_of_ascii (by decide)

theorem firstOutside?_eq_none_iff {s : Charset} {text : String} :
    s.firstOutside? text = none ↔ s.hasAll text = true := by
  simp only [firstOutside?, Option.map_eq_none_iff, List.find?_eq_none, hasAll, List.all_eq_true]
  constructor
  · intro h c hc
    obtain ⟨i, hi⟩ := List.mem_iff_getElem?.1 hc
    simpa using h (c, i) (List.mk_mem_zipIdx_iff_getElem?.2 hi)
  · intro h p hp
    simpa using h p.1 (List.fst_mem_of_mem_zipIdx hp)

end Charset

end ReversePolish
