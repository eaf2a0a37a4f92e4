import ReversePolish.Text.Blank
import ReversePolish.Text.Quoted

set_option autoImplicit false

/-! # Ragged texts

A text that is escaped unit by unit can have one half of a surrogate pair without the other. Such
a half is a code point but no character, so a text that has one is no `String`; it is *ragged*.
A ragged text is kept as the characters in front of its first half, that half, and the code points
behind it, so every one of them has a half and no `String` is written twice. Half a pair has no
UTF-8 form. Between quotes it is written by its unit, so a message about a ragged text is a
`String` again. -/

namespace ReversePolish

/-! ## Code points -/

/-- Half of a surrogate pair. -/
structure Surrogate where
  unit : Nat
  le_unit : 0xd800 ≤ unit
  unit_lt : unit < 0xe000
deriving DecidableEq, Repr

/-- A code point: a character, or half of a pair. -/
inductive CodePoint where
  | char (c : Char)
  | half (u : Surrogate)
deriving DecidableEq, Repr

namespace CodePoint

/-- The code point of a unit that is part of no pair. -/
def ofUnit (n : Nat) : CodePoint :=
  if h : 0xd800 ≤ n ∧ n < 0xe000 then half ⟨n, h.1, h.2⟩ else char (Char.ofNat n)

/-- The character, if it is one. -/
def char? : CodePoint → Option Char
  | char c => some c
  | half _ => none

/-- Whether the code point separates tokens. -/
def separates : CodePoint → Bool
  | char c => isBlank c
  | half _ => false

/-- A code point as it stands between quotes. -/
def quoted (quote : Char) : CodePoint → List Char
  | char c => quotedChar quote c
  | half u => '\\' :: 'u' :: hexDigits 4 u.unit

end CodePoint

/-! ## Texts -/

/-- A text with half of a pair in it. -/
structure RaggedText where
  /-- The characters in front of the first half. -/
  front : List Char
  half : Surrogate
  rest : List CodePoint
deriving DecidableEq, Repr

namespace RaggedText

/-- The code points from left to right. -/
def codePoints (t : RaggedText) : List CodePoint :=
  t.front.map .char ++ .half t.half :: t.rest

/-- The number of code points. -/
def length (t : RaggedText) : Nat :=
  t.codePoints.length

/-- A ragged text between quotes. -/
def quoted (t : RaggedText) : String :=
  let q := quoteFor (t.codePoints.filterMap CodePoint.char?)
  String.ofList (q :: t.codePoints.flatMap (CodePoint.quoted q) ++ [q])

end RaggedText

/-- A text as it is received: a `String`, or a ragged text. -/
inductive Text where
  | plain (s : String)
  | ragged (t : RaggedText)
deriving DecidableEq, Repr

namespace Text

/-- The text of code points behind characters, the last of which comes first. -/
def behind (done : List Char) : List CodePoint → Text
  | [] => plain (String.ofList done.reverse)
  | .char c :: rest => behind (c :: done) rest
  | .half u :: rest => ragged ⟨done.reverse, u, rest⟩

/-- The text of code points. -/
def ofCodePoints (cs : List CodePoint) : Text :=
  behind [] cs

/-- The text as a `String`, if it is one. -/
def string? : Text → Option String
  | plain s => some s
  | ragged _ => none

end Text

end ReversePolish
