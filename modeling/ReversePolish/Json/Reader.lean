import ReversePolish.Json.Basic
import ReversePolish.Binary64.Round

set_option autoImplicit false

/-! # Reading JSON

A document is one value with white space around it. Besides the standard the literals `NaN`,
`Infinity` and `-Infinity` are read. A malformed document is reported by the offset, counted in
characters, of the place where reading stops: for a string without end that is its opening
quote, for a bad escape of a code point the letter `u`. A document can also be refused, because an
integer in it is too long to be converted or because it is nested too deeply. A text in it is
ragged where a unit is escaped without the other half of its pair; `readDocument` keeps it as it
is, and `read` refuses such a document.

All readers take what is left of the document and give back what is left after them; a place is
the number of characters that are left there. Every step of a reader takes a character, so twice
as much fuel as there are characters is enough. -/

namespace ReversePolish

namespace Json

/-- Why a document cannot be read, with places counted from the end. -/
inductive Problem where
  | malformed (left : Nat)
  | refused
deriving DecidableEq, Repr

/-- Why a document cannot be read. -/
inductive ReadError where
  | malformed (offset : Nat)
  | refused
deriving DecidableEq, Repr

/-- The depth up to which values are nested. -/
def maxNesting : Nat := 1000

/-- White space between the parts of a document. -/
def isJsonSpace (c : Char) : Bool :=
  c == ' ' || c == '\t' || c == '\n' || c == '\r'

/-! ## Strings -/

/-- The character that a letter behind a backslash stands for. -/
def simpleEscape? : Char → Option Char
  | '"' => some '"'
  | '\\' => some '\\'
  | '/' => some '/'
  | 'b' => some '\x08'
  | 'f' => some '\x0c'
  | 'n' => some '\n'
  | 'r' => some '\r'
  | 't' => some '\t'
  | _ => none

/-- The value of a hexadecimal digit of either case. -/
def hexValue? (c : Char) : Option Nat :=
  if '0' ≤ c && c ≤ '9' then some (c.toNat - 48)
  else if 'a' ≤ c && c ≤ 'f' then some (c.toNat - 87)
  else if 'A' ≤ c && c ≤ 'F' then some (c.toNat - 55)
  else none

/-- The value of four hexadecimal digits. -/
def hexValues? (cs : List Char) : Option Nat :=
  (cs.mapM hexValue?).map (·.foldl (16 * · + ·) 0)

/-- Whether a code unit is the first of a pair. -/
def isHighSurrogate (n : Nat) : Bool :=
  0xd800 ≤ n && n < 0xdc00

/-- Whether a code unit is the second of a pair. -/
def isLowSurrogate (n : Nat) : Bool :=
  0xdc00 ≤ n && n < 0xe000

/-- The code unit of four hexadecimal digits behind the letter `u`, which `cs` starts with. A
    character must follow them. -/
def readUnit (cs : List Char) : Except Problem (Nat × List Char) :=
  match cs with
  -- `e` is the character behind the digits; it is not taken
  | _ :: a :: b :: c :: d :: e :: rest =>
    match hexValues? [a, b, c, d] with
    | some n => .ok (n, e :: rest)
    | none => .error (.malformed cs.length)
  | _ => .error (.malformed cs.length)

/-- An escaped code point; `cs` starts with the letter `u`. Two units behind one another that make
    up a pair are one character, and half a pair stays what it is. -/
def readCodePoint (cs : List Char) : Except Problem (CodePoint × List Char) := do
  let (n, rest) ← readUnit cs
  match rest with
  | '\\' :: 'u' :: more =>
    if isHighSurrogate n && 5 ≤ more.length then
      let (m, rest') ← readUnit ('u' :: more)
      -- a second unit that completes no pair is left to be read on its own
      if isLowSurrogate m then
        return (.char (Char.ofNat (0x10000 + (n - 0xd800) * 0x400 + (m - 0xdc00))), rest')
      else return (.ofUnit n, rest)
    else return (.ofUnit n, rest)
  | _ => return (.ofUnit n, rest)

/-- The code point that is escaped behind a backslash. -/
def readEscape (cs : List Char) : Except Problem (CodePoint × List Char) :=
  match cs with
  | [] => .error (.malformed 0)
  | 'u' :: _ => readCodePoint cs
  | c :: rest =>
    match simpleEscape? c with
    | some d => .ok (.char d, rest)
    -- the place of an unknown escape is its backslash, one character back
    | none => .error (.malformed (cs.length + 1))

/-- The rest of a string behind its opening quote. `start` is the document from the quote on and
    `done` holds the code points so far, the last one first. -/
def readString (fuel : Nat) (start : List Char) (done : List CodePoint) (cs : List Char) :
    Except Problem (Text × List Char) :=
  match fuel with
  | 0 => .error .refused
  | fuel + 1 =>
    match cs with
    | [] => .error (.malformed start.length)
    | '"' :: rest => .ok (.ofCodePoints done.reverse, rest)
    | ['\\'] => .error (.malformed start.length)
    | '\\' :: rest => do
      let (p, rest) ← readEscape rest
      readString fuel start (p :: done) rest
    | c :: rest =>
      if c.toNat < 0x20 then .error (.malformed cs.length)
      else readString fuel start (.char c :: done) rest

/-! ## Numbers -/

/-- The digits in front of point and exponent: one zero, or digits that do not start with it. -/
def readWhole? : List Char → Option (List Char × List Char)
  -- digits behind a leading zero belong to no number
  | '0' :: rest => some (['0'], rest)
  | cs =>
    let ds := cs.takeWhile Char.isDigit
    if ds.isEmpty then none else some (ds, cs.dropWhile Char.isDigit)

/-- A point and digits, if they are next. -/
def readFraction : List Char → List Char × List Char
  | '.' :: rest =>
    let ds := rest.takeWhile Char.isDigit
    if ds.isEmpty then ([], '.' :: rest) else (ds, rest.dropWhile Char.isDigit)
  | cs => ([], cs)

/-- An exponent, if one is next. -/
def readExponent : List Char → Option Int × List Char
  | c :: rest =>
    if c == 'e' || c == 'E' then
      let (negative, cs) := Decimal.splitSign rest
      let ds := cs.takeWhile Char.isDigit
      if ds.isEmpty then (none, c :: rest)
      else
        (some (if negative then -(Decimal.value ds : Int) else Decimal.value ds),
          cs.dropWhile Char.isDigit)
    else (none, c :: rest)
  | [] => (none, [])

/-- What follows the minus sign of a number, if it has one. -/
def readUnsigned (negative : Bool) (start cs : List Char) :
    Except Problem (Json Text × List Char) :=
  match readWhole? cs with
  | none => .error (.malformed start.length)
  | some (whole, rest) =>
    let (fraction, rest) := readFraction rest
    let (exponent, rest) := readExponent rest
    if fraction.isEmpty && exponent.isNone then
      if Decimal.maxDigits < whole.length then .error .refused
      else
        let n : Int := Decimal.value whole
        .ok (.integer (if negative then -n else n), rest)
    else
      let x := Binary64.ofDecimal negative (Decimal.value (whole ++ fraction))
        (exponent.getD 0 - fraction.length)
      .ok (.float x, rest)

/-- A number; anything else is no value at all. -/
def readNumber (cs : List Char) : Except Problem (Json Text × List Char) :=
  match cs with
  | '-' :: rest => readUnsigned true cs rest
  | _ => readUnsigned false cs cs

/-! ## Values -/

/-- The values that are written as words. -/
def words : List (List Char × Json Text) :=
  [(['n', 'u', 'l', 'l'], .null),
   (['t', 'r', 'u', 'e'], .bool true),
   (['f', 'a', 'l', 's', 'e'], .bool false),
   (['N', 'a', 'N'], .float .nan),
   (['I', 'n', 'f', 'i', 'n', 'i', 't', 'y'], .float (.infinity false)),
   (['-', 'I', 'n', 'f', 'i', 'n', 'i', 't', 'y'], .float (.infinity true))]

/-- The word that is next, if one is. -/
def readWord? (cs : List Char) : Option (Json Text × List Char) :=
  (words.find? fun (w, _) => w.isPrefixOf cs).map fun (w, v) => (v, cs.drop w.length)

/-- What is left behind white space. -/
def skipSpace (cs : List Char) : List Char :=
  cs.dropWhile isJsonSpace

mutual

/-- A value. `fuel` bounds the number of steps, `depth` the nesting. -/
def readValue (fuel depth : Nat) (cs : List Char) : Except Problem (Json Text × List Char) :=
  match fuel with
  | 0 => .error .refused
  | fuel + 1 =>
    match cs with
    | [] => .error (.malformed 0)
    | '"' :: rest => do
      let (s, rest) ← readString fuel cs [] rest
      return (.string s, rest)
    | '[' :: rest =>
      if depth = 0 then .error .refused
      else
        match skipSpace rest with
        | ']' :: rest => .ok (.array [], rest)
        | rest => readItems fuel (depth - 1) [] rest
    | '\x7b' :: rest =>
      if depth = 0 then .error .refused
      else
        match skipSpace rest with
        | '\x7d' :: rest => .ok (.object [], rest)
        | rest => readMembers fuel (depth - 1) [] rest
    | cs =>
      match readWord? cs with
      | some found => .ok found
      | none => readNumber cs

/-- The items of an array from a value on; `done` holds those before it, the last one first. -/
def readItems (fuel depth : Nat) (done : List (Json Text)) (cs : List Char) :
    Except Problem (Json Text × List Char) :=
  match fuel with
  | 0 => .error .refused
  | fuel + 1 => do
    let (v, rest) ← readValue fuel depth cs
    match skipSpace rest with
    | ']' :: rest => return (.array (v :: done).reverse, rest)
    | ',' :: rest => readItems fuel depth (v :: done) (skipSpace rest)
    | rest => .error (.malformed rest.length)

/-- The members of an object from a name on; `done` holds those before it, the last one
    first. -/
def readMembers (fuel depth : Nat) (done : List (Text × Json Text)) (cs : List Char) :
    Except Problem (Json Text × List Char) :=
  match fuel with
  | 0 => .error .refused
  | fuel + 1 =>
    match cs with
    | '"' :: rest => do
      let (name, rest) ← readString fuel cs [] rest
      match skipSpace rest with
      | ':' :: rest =>
        let (v, rest) ← readValue fuel depth (skipSpace rest)
        match skipSpace rest with
        | '\x7d' :: rest => return (.object ((name, v) :: done).reverse, rest)
        | ',' :: rest => readMembers fuel depth ((name, v) :: done) (skipSpace rest)
        | rest => .error (.malformed rest.length)
      | rest => .error (.malformed rest.length)
    | cs => .error (.malformed cs.length)

end

/-! ## Documents -/

/-- The value of a document behind the byte-order mark. -/
def readChars (cs : List Char) : Except Problem (Json Text) := do
  let (v, rest) ← readValue (2 * cs.length + 2) maxNesting (skipSpace cs)
  match skipSpace rest with
  | [] => return v
  | rest => .error (.malformed rest.length)

/-- The value of a document. A byte-order mark in front of it does not count. -/
def readDocument (text : String) : Except ReadError (Json Text) :=
  let cs := match text.toList with
    | '\ufeff' :: cs => cs
    | cs => cs
  match readChars cs with
  | .ok v => .ok v
  | .error (.malformed left) => .error (.malformed (cs.length - left))
  | .error .refused => .error .refused

/-- The value of a document without ragged texts. -/
def read (text : String) : Except ReadError Json :=
  match readDocument text with
  | .ok v =>
    match v.plain? with
    | some w => .ok w
    | none => .error .refused
  | .error e => .error e

end Json

end ReversePolish
