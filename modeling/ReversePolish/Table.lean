set_option autoImplicit false

/-! # Tables

A table of names and values in 80 columns, drawn with ASCII characters under a centred title. The
column of names is as wide as the longest name and a space. The column of values is as wide as
the longest line of a value, as far as there is room; a line that does not fit is broken between
words, and where one word alone does not fit it is cut and ends in an ellipsis. -/

namespace ReversePolish

/-- A title and rows of names and values. -/
structure Table where
  title : String
  rows : List (String × String)
deriving Repr

namespace Table

/-- The number of columns of the screen. -/
def screenWidth : Nat := 80

/-- The distance of tab stops. -/
def tabStop : Nat := 8

/-! ## Lines of a value -/

/-- Control characters that a value is shown without. -/
def isDropped (c : Char) : Bool :=
  c == '\x07' || c == '\x08' || c == '\x0b' || c == '\x0c' || c == '\r'

/-- The lines of a text. -/
def splitLines : List Char → List (List Char)
  | [] => [[]]
  | c :: cs =>
    if c == '\n' then [] :: splitLines cs
    else match splitLines cs with
      | line :: rest => (c :: line) :: rest
      | [] => [[c]]

/-- A line with spaces up to the next stop in the place of a tab; `column` is where it starts. -/
def expandTabs (column : Nat) : List Char → List Char
  | [] => []
  | c :: cs =>
    if c == '\t' then
      let n := tabStop - column % tabStop
      List.replicate n ' ' ++ expandTabs (column + n) cs
    else c :: expandTabs (column + 1) cs

/-- The columns that a line is reckoned to need; a tab counts for none. -/
def measure (line : List Char) : Nat :=
  (line.filter (· != '\t')).length

/-! ## Breaking lines -/

/-- The words of a line, each with the spaces behind it and the first with those in front too.
    `word` is the word so far, its last character first, and `closed` says whether it has ended in
    a space. -/
def splitWords (word : List Char) (closed : Bool) : List Char → List (List Char)
  | [] => if word.isEmpty then [] else [word.reverse]
  | c :: cs =>
    -- a space closes the word only behind a character that is none
    if c == ' ' then splitWords (c :: word) (word.any (· != ' ')) cs
    else if closed then word.reverse :: splitWords [c] false cs
    else splitWords (c :: word) false cs

/-- A line without the spaces at its end. -/
def dropTrailing (line : List Char) : List Char :=
  (line.reverse.dropWhile (· == ' ')).reverse

/-- Words put on lines of a width. `line` is the line so far. -/
def fill (width : Nat) (line : List Char) (used : Nat) : List (List Char) → List (List Char)
  | [] => [line]
  | w :: ws =>
    -- the spaces behind the last word of a line may stand beyond the width
    if used + (dropTrailing w).length ≤ width then fill width (line ++ w) (used + w.length) ws
    else if line.isEmpty then fill width w w.length ws
    else line :: fill width w w.length ws

/-- A line without the spaces at its end that go beyond a width. -/
def cropSpaces (width : Nat) (line : List Char) : List Char :=
  let kept := (dropTrailing line).length
  line.take (max kept width)

/-- A line cut to a width. -/
def cut (width : Nat) (line : List Char) : List Char :=
  if width < line.length then line.take (width - 1) ++ ['…'] else line

/-- A line filled up with spaces. -/
def pad (width : Nat) (line : List Char) : List Char :=
  line ++ List.replicate (width - line.length) ' '

/-- A line broken into lines of a width. -/
def breakLine (width : Nat) (line : List Char) : List (List Char) :=
  (fill width [] 0 (splitWords [] false line)).map fun l => cut width (cropSpaces width l)

/-! ## Drawing -/

/-- The lines of a value as they are given. -/
def valueLines (value : String) : List (List Char) :=
  splitLines (value.toList.filter (!isDropped ·))

/-- The greatest of some numbers. -/
def greatest (ns : List Nat) : Nat :=
  ns.foldl max 0

/-- The width of the column of names. -/
def nameWidth (t : Table) : Nat :=
  greatest (t.rows.map fun r => r.1.length) + 1

/-- The width of the column of values. -/
def valueWidth (t : Table) : Nat :=
  min (screenWidth - (t.nameWidth + 4))
    (greatest (t.rows.flatMap fun r => (valueLines r.2).map measure))

/-- The width of the table. -/
def width (t : Table) : Nat :=
  t.nameWidth + t.valueWidth + 4

/-- A line of the table with a name and a line of a value. -/
def rowLine (t : Table) (name line : List Char) : List Char :=
  '|' :: pad t.nameWidth name ++ '|' :: ' ' :: pad t.valueWidth line ++ ['|']

/-- The lines of a row; the name stands on the first. -/
def rowLines (t : Table) (row : String × String) : List (List Char) :=
  let lines := (valueLines row.2).flatMap fun l => breakLine t.valueWidth (expandTabs 0 l)
  match lines with
  | [] => [t.rowLine row.1.toList []]
  | first :: rest => t.rowLine row.1.toList first :: rest.map (t.rowLine [])

/-- The border above and below the rows. -/
def border (t : Table) : List Char :=
  '+' :: List.replicate (t.width - 2) '-' ++ ['+']

/-- A line in the middle of a width. -/
def centre (width : Nat) (line : List Char) : List Char :=
  let line := dropTrailing line
  pad width (List.replicate ((width - line.length) / 2) ' ' ++ line)

/-- The lines of the title. -/
def titleLines (t : Table) : List (List Char) :=
  (breakLine t.width t.title.toList).map (centre t.width)

/-- All lines of the table. -/
def lines (t : Table) : List (List Char) :=
  t.titleLines ++ t.border :: t.rows.flatMap t.rowLines ++ [t.border]

/-- The table as text; every line ends in a line feed. -/
def text (t : Table) : String :=
  String.ofList (t.lines.flatMap fun l => l ++ ['\n'])

end Table

end ReversePolish
