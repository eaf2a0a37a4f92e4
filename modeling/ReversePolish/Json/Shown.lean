import ReversePolish.Json.Basic
import ReversePolish.Text.Quoted

set_option autoImplicit false

/-! # JSON values in messages

A message that is about a value shows it on one line: texts between quotes, numbers in their
shortest text, the parts of arrays and objects after commas, and the absence of a value as
`None`. -/

namespace ReversePolish

namespace Json

mutual

/-- A value as a message shows it. -/
def shown : Json → String
  | null => "None"
  | bool b => if b then "True" else "False"
  | integer i => Decimal.intText i
  | float x => x.shortText
  | string s => quoted s
  | array items => "[" ++ ", ".intercalate (shownItems items) ++ "]"
  | object members => "\x7b" ++ ", ".intercalate (shownMembers members) ++ "\x7d"

/-- The items of an array as a message shows them. -/
def shownItems : List Json → List String
  | [] => []
  | v :: rest => shown v :: shownItems rest

/-- The members of an object as a message shows them. -/
def shownMembers : List (String × Json) → List String
  | [] => []
  | (name, v) :: rest => (quoted name ++ ": " ++ shown v) :: shownMembers rest

end

end Json

end ReversePolish
