import ReversePolish.Fault
import ReversePolish.Json.Basic
import ReversePolish.Literal.Number
import ReversePolish.Text.Blank

set_option autoImplicit false

/-! # Lenient numbers

Fields that call for a number also take what plainly stands for one. An integer may come as a
number without fraction, as a truth value, or as a text. White space around the text is dropped,
zeros in front of the number do not count, single underscores may stand inside it, and a point may
follow with one zero or more behind it. A floating-point number may come as an integer, as a truth
value, or as a text in the form of a number literal. -/

namespace ReversePolish

attribute [local instance] corePow

/-! ## Underscores -/

/-- A text without its underscores, if none of them is the first character, the last one or next
    to another. -/
def dropUnderscores? (cs : List Char) : Option (List Char) :=
  if cs.head? == some '_' || cs.getLast? == some '_' ||
      (cs.zip (cs.drop 1)).contains ('_', '_') then
    none
  else some (cs.filter (· != '_'))

/-! ## Integers -/

/-- Whether a character may stand among the zeros in front of a number. -/
def isPadding (c : Char) : Bool :=
  c == '0' || c == '_'

/-- A text that starts with a digit, without the zeros in front and any underscores behind them.
    What counts starts with another digit or with a minus; before anything else, and at the end,
    the last zero stays. -/
def dropZeros? (cs : List Char) : Option (List Char) :=
  if !cs.head?.any Char.isDigit then none
  else
    let rest := cs.dropWhile isPadding
    if rest.head?.any fun c => c.isDigit || c == '-' then some rest
    else (cs.takeWhile isPadding).getLast?.map (· :: rest)

/-- A text without its first point and the zeros behind it, of which a point needs one. -/
def dropFraction? (cs : List Char) : Option (List Char) :=
  let whole := cs.takeWhile (· != '.')
  match cs.dropWhile (· != '.') with
  | [] => some whole
  | _ :: zeros => if !zeros.isEmpty && zeros.all (· == '0') then some whole else none

/-- The sign and the digits of the integer that a text denotes: `true` for a minus. A minus stands
    in front of the zeros or behind them, not twice, and the digits behind it are without further
    zeros in front. -/
def integerParts? (cs : List Char) : Option (Bool × List Char) := do
  let (outer, body) := Decimal.splitSign (trim isWhiteSpace cs)
  let body ← dropZeros? body
  let body ← dropFraction? body
  let body ← dropUnderscores? body
  let (inner, ds) := Decimal.splitSign body
  if outer && inner || !Decimal.isNumeral ds || (ds.head? == some '0' && ds.length != 1) then none
  else some (outer || inner, ds)

/-- The integer that a text denotes. -/
def integerOfText (cs : List Char) : Except Fault Int :=
  match integerParts? cs with
  | none => .error .integerText
  | some (negative, ds) =>
    if Decimal.maxDigits < ds.length then .error .integerSize
    else .ok (if negative then -(Decimal.value ds : Int) else Decimal.value ds)

/-- The integer that a number without fraction stands for. -/
def integerOfNumber : Binary64 → Except Fault Int
  | .finite x =>
    if !x.isWhole then .error .fractional
    -- a whole number from `2 ^ 63` on is not taken for an integer
    else if 2 ^ (63 : Nat) ≤ x.quanta / 2 ^ (1074 : Nat) then .error .integerSize
    else .ok (x.signedQuanta / 2 ^ (1074 : Nat))
  | _ => .error .notFinite

/-- The integer that a value stands for. -/
def integerOfJson : Json → Except Fault Int
  | .integer i => .ok i
  | .float x => integerOfNumber x
  | .bool b => .ok (if b then 1 else 0)
  | .string s => integerOfText s.toList
  | _ => .error .notAnInteger

/-! ## Floating-point numbers -/

/-- The number that a text denotes, with white space around it or with underscores inside. -/
def numberOfText? (cs : List Char) : Option Binary64 :=
  match DecimalLiteral.read? (trim isWhiteSpace cs) with
  | some l => some l.number
  | none => ((dropUnderscores? cs).bind DecimalLiteral.read?).map DecimalLiteral.number

/-- The number that a value stands for. -/
def numberOfJson? : Json → Option Binary64
  | .integer i => some (.ofInt i)
  | .float x => some x
  | .bool b => some (.ofInt (if b then 1 else 0))
  | .string s => numberOfText? s.toList
  | _ => none

end ReversePolish
