set_option autoImplicit false

/-! # Blank characters

Three sets of characters count as empty space in one place or another. The separators of tokens
are the six of ASCII; fields that hold an integer are trimmed of the Unicode property
White_Space; text that arrives on standard input is trimmed of that property and of the four
information separators. Trimming takes characters off both ends and none from the middle. -/

namespace ReversePolish

/-! ## The sets -/

/-- Space, tab, line feed, carriage return, vertical tab and form feed. -/
def isBlank (c : Char) : Bool :=
  c == ' ' || c == '\t' || c == '\n' || c == '\r' || c == '\x0b' || c == '\x0c'

/-- The Unicode property White_Space. -/
def isWhiteSpace (c : Char) : Bool :=
  isBlank c || c == '\x85' || c == '\xa0' || c == '\u1680' ||
    (0x2000 ≤ c.toNat && c.toNat ≤ 0x200a) || c == '\u2028' || c == '\u2029' ||
    c == '\u202f' || c == '\u205f' || c == '\u3000'

/-- White_Space and the information separators `U+001C` to `U+001F`. -/
def isSpace (c : Char) : Bool :=
  isWhiteSpace c || (0x1c ≤ c.toNat && c.toNat ≤ 0x1f)

theorem isWhiteSpace_of_isBlank {c : Char} (h : isBlank c = true) : isWhiteSpace c = true := by
  simp [isWhiteSpace, h]

theorem isSpace_of_isWhiteSpace {c : Char} (h : isWhiteSpace c = true) : isSpace c = true := by
  simp [isSpace, h]

/-! ## Trimming -/

/-- Drops the characters of a set from the end. -/
def trimEnd (p : Char → Bool) (cs : List Char) : List Char :=
  (cs.reverse.dropWhile p).reverse

/-- Drops the characters of a set from both ends. -/
def trim (p : Char → Bool) (cs : List Char) : List Char :=
  trimEnd p (cs.dropWhile p)

/-- `trim` on strings. -/
def trimText (p : Char → Bool) (s : String) : String :=
  String.ofList (trim p s.toList)

end ReversePolish
