import ReversePolish.CommandLine.Flag
import ReversePolish.Text.DecimalDigit

set_option autoImplicit false

/-! # Arguments

Every argument is one of four things: a plain value, a flag that may have a value attached, an
unknown flag, or the marker `--`, behind which all arguments are plain values. A long flag may be
abbreviated as long as the abbreviation fits no other, and has its value attached behind `=`; a
short one has it attached directly or behind `=`. What begins with a hyphen is a plain value
still if it is a hyphen alone, a negative number, or no flag but has a space in it. -/

namespace ReversePolish

namespace CommandLine

/-- An argument by its role. -/
inductive Argument where
  | plain (value : String)
  /-- The marker `--`. -/
  | marker
  /-- A flag, long or short, with the value attached to it if there is one. -/
  | flag (f : Flag) (long : Bool) (attached : Option (List Char))
  | unknown (spelling : String)
deriving DecidableEq, Repr

namespace Argument

/-- The marker behind which all arguments are plain values. -/
def markerText : String := "--"

/-- Whether a spelling is that of a long flag. -/
def isLong (s : List Char) : Bool :=
  "--".toList.isPrefixOf s

/-- The part before the first `=`, and the part behind it if there is one. -/
def splitAttached : List Char → List Char × Option (List Char)
  | [] => ([], none)
  | c :: cs =>
    if c == '=' then ([], some cs)
    else
      let (name, attached) := splitAttached cs
      (c :: name, attached)

/-- One or more digits, behind which a line feed may follow. -/
def isDigitRun (cs : List Char) : Bool :=
  let rest := cs.dropWhile isDecimalDigit
  cs.head?.any isDecimalDigit && (rest.isEmpty || rest == ['\n'])

/-- Whether an argument looks like a negative number. -/
def isNegativeNumber : List Char → Bool
  | '-' :: cs =>
    isDigitRun cs ||
      match cs.dropWhile isDecimalDigit with
      | '.' :: fraction => isDigitRun fraction
      | _ => false
  | _ => false

/-- The flags that an abbreviation can stand for, by their spellings, with the value attached. -/
def candidates (flags : List Flag) (s : List Char) :
    List (List Char × Flag × Option (List Char)) :=
  if isLong s then
    let (name, attached) := splitAttached s
    ((spelled flags).filter fun (spelling, _) => name.isPrefixOf spelling).map
      fun (spelling, f) => (spelling, f, attached)
  else
    ((spelled flags).filter fun (spelling, _) => spelling == s.take 2).map
      fun (spelling, f) => (spelling, f, some (s.drop 2))

/-- An argument that begins with a hyphen and is no flag as it stands. -/
def ofAbbreviation (flags : List Flag) (s : List Char) : Except UsageError Argument :=
  match candidates flags s with
  | [(spelling, f, attached)] => .ok (.flag f (isLong spelling) attached)
  | [] =>
    if isNegativeNumber s || s.contains ' ' then .ok (.plain (String.ofList s))
    else .ok (.unknown (String.ofList s))
  | several => .error (.ambiguous (String.ofList s) (several.map fun c => String.ofList c.1))

/-- The role of an argument other than the marker. -/
def classify (flags : List Flag) (s : List Char) : Except UsageError Argument :=
  if s.head? != some '-' then .ok (.plain (String.ofList s))
  else
    match flagOf? flags s with
    | some f => .ok (.flag f (isLong s) none)
    | none =>
      if s == ['-'] then .ok (.plain "-")
      else
        match splitAttached s with
        | (name, some attached) =>
          match flagOf? flags name with
          | some f => .ok (.flag f (isLong name) (some attached))
          | none => ofAbbreviation flags s
        | (_, none) => ofAbbreviation flags s

/-- The roles of all arguments, or the first error. -/
def classifyAll (flags : List Flag) : List String → Except UsageError (List Argument)
  | [] => .ok []
  | s :: rest =>
    -- behind the marker even a flag is a plain value
    if s == markerText then .ok (.marker :: rest.map plain)
    else do
      let a ← classify flags s.toList
      let as ← classifyAll flags rest
      return a :: as

end Argument

end CommandLine

end ReversePolish
