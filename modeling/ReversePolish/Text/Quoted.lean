import ReversePolish.Text.CodePoint
import ReversePolish.Text.Printable

set_option autoImplicit false

/-! # Quoted text

Messages quote the text they are about. The quote is the apostrophe, unless the text holds an
apostrophe and no double quote. The backslash and the quote in use get a backslash; line feed,
carriage return and tab are written by letter; any other character that is not printable is
written by its code point in two, four or eight lower-case hexadecimal digits. -/

namespace ReversePolish

/-- A character as it stands between quotes. -/
def quotedChar (quote c : Char) : List Char :=
  if c == '\\' || c == quote then ['\\', c]
  else if c == '\n' then ['\\', 'n']
  else if c == '\r' then ['\\', 'r']
  else if c == '\t' then ['\\', 't']
  else if isPrintable c then [c]
  else codePointEscape c

/-- The quote that a text calls for. -/
def quoteFor (cs : List Char) : Char :=
  if cs.contains '\'' && !cs.contains '"' then '"' else '\''

/-- A text between quotes. -/
def quoted (s : String) : String :=
  let q := quoteFor s.toList
  String.ofList (q :: s.toList.flatMap (quotedChar q) ++ [q])

end ReversePolish
