import ReversePolish.Json.Basic
import ReversePolish.Text.CodePoint

set_option autoImplicit false

/-! # Writing JSON

A value on one line without white space. Strings escape the quote, the backslash and the control
characters and leave all else as it is. A number that is not finite has no JSON form and is
written as null. -/

namespace ReversePolish

namespace Json

/-- A character inside a string. -/
def escapeChar (c : Char) : List Char :=
  if c == '"' || c == '\\' then ['\\', c]
  else if c.toNat < 0x20 then '\\' :: 'u' :: hexDigits 4 c.toNat
  else [c]

/-- A string between quotes. -/
def writeString (s : String) : String :=
  String.ofList ('"' :: s.toList.flatMap escapeChar ++ ['"'])

mutual

/-- A value as text. -/
def write : Json → String
  | null => "null"
  | bool b => if b then "true" else "false"
  | integer i => Decimal.intText i
  | float x => if x.isFinite then x.shortText else "null"
  | string s => writeString s
  | array items => "[" ++ ",".intercalate (writeItems items) ++ "]"
  | object members => "\x7b" ++ ",".intercalate (writeMembers members) ++ "\x7d"

/-- The items of an array as texts. -/
def writeItems : List Json → List String
  | [] => []
  | v :: rest => write v :: writeItems rest

/-- The members of an object as texts. -/
def writeMembers : List (String × Json) → List String
  | [] => []
  | (name, v) :: rest => (writeString name ++ ":" ++ write v) :: writeMembers rest

end

end Json

end ReversePolish
