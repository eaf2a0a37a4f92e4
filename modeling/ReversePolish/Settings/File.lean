import ReversePolish.Text.Blank

set_option autoImplicit false

/-! # Files of settings

A file of settings binds names to values, one binding a line: a name, an equals sign and a value,
behind the word `export` if need be. A value may stand between quotes, where it may run over
several lines and where some characters are escaped; without quotes it ends before a `#` that
follows white space. A line that is none of this is passed over. A value may refer to a name as
`$\x7bname\x7d`, with a default behind `:-`; the reference stands for the value of the name in the
lines before, or else in the environment. -/

namespace ReversePolish

namespace SettingsFile

/-- A name with its value; a name without an equals sign has none. -/
structure Binding where
  name : String
  value : Option String
deriving DecidableEq, Repr

/-! ## Lines -/

/-- White space within a line. -/
def isLineSpace (c : Char) : Bool :=
  isSpace c && c != '\n' && c != '\r'

/-- All line breaks as line feeds; `broken` says whether a carriage return came just before. -/
def normalizeBreaks (broken : Bool) : List Char → List Char
  | [] => []
  | c :: cs =>
    if c == '\r' then '\n' :: normalizeBreaks true cs
    else if c == '\n' && broken then normalizeBreaks false cs
    else c :: normalizeBreaks false cs

/-- What follows the line. -/
def nextLine (cs : List Char) : List Char :=
  (cs.dropWhile (· != '\n')).drop 1

/-- What follows the end of a line, if only white space and a comment come before it. The error
    of this and other readers is what is left at the place where reading stops. -/
def lineEnd (cs : List Char) : Except (List Char) (List Char) :=
  match cs.dropWhile isLineSpace with
  | [] => .ok []
  | '\n' :: rest => .ok rest
  | '#' :: rest => .ok (nextLine rest)
  | _ => .error cs

/-! ## Names -/

/-- What follows the word `export` and white space, or the text itself. -/
def skipExport (cs : List Char) : List Char :=
  let word := ['e', 'x', 'p', 'o', 'r', 't']
  if word.isPrefixOf cs then
    let rest := cs.drop word.length
    let rest' := rest.dropWhile isLineSpace
    if rest'.length < rest.length then rest' else cs
  else cs

/-- A name: between apostrophes, or up to an equals sign, a `#` or white space. -/
def readName? : List Char → Option (List Char × List Char)
  | '\'' :: cs =>
    let name := cs.takeWhile (· != '\'')
    match cs.dropWhile (· != '\'') with
    | _ :: rest => if name.isEmpty then none else some (name, rest)
    | [] => none
  | cs =>
    let isPart := fun c => c != '=' && c != '#' && !isSpace c
    let name := cs.takeWhile isPart
    if name.isEmpty then none else some (name, cs.dropWhile isPart)

/-! ## Values -/

/-- A quoted text behind its opening quote, up to the first quote without a backslash in front;
    where there is none, up to the last quote with one. `escaped` says whether a backslash came
    just before. -/
def readQuoted? (quote : Char) (escaped : Bool) : List Char → Option (List Char × List Char)
  | [] => none
  | c :: cs =>
    if c == quote then
      if escaped then
        -- prefer a later quote that can close the text; failing that, this one does
        match readQuoted? quote false cs with
        | some (body, after) => some (c :: body, after)
        | none => some ([], cs)
      else some ([], cs)
    else (readQuoted? quote (c == '\\') cs).map fun (body, after) => (c :: body, after)

/-- The escapes between apostrophes. -/
def singleEscape? : Char → Option Char
  | '\\' => some '\\'
  | '\'' => some '\''
  | _ => none

/-- The escapes between double quotes. -/
def doubleEscape? : Char → Option Char
  | '\\' => some '\\'
  | '\'' => some '\''
  | '"' => some '"'
  | 'a' => some '\x07'
  | 'b' => some '\x08'
  | 'f' => some '\x0c'
  | 'n' => some '\n'
  | 'r' => some '\r'
  | 't' => some '\t'
  | 'v' => some '\x0b'
  | _ => none

/-- A text with its escapes replaced; `pending` says whether a backslash came just before. -/
def unescape (escape? : Char → Option Char) (pending : Bool) : List Char → List Char
  | [] => if pending then ['\\'] else []
  | c :: cs =>
    if pending then
      match escape? c with
      | some d => d :: unescape escape? false cs
      | none => '\\' :: c :: unescape escape? false cs
    else if c == '\\' then unescape escape? true cs
    else c :: unescape escape? false cs

/-- A text without a comment at its end, which starts at white space before a `#`. -/
def dropComment : List Char → List Char
  | [] => []
  | c :: cs =>
    if isSpace c && (cs.dropWhile isSpace).head? == some '#' then []
    else c :: dropComment cs

/-- A value and what follows it. -/
def readValue (cs : List Char) : Except (List Char) (List Char × List Char) :=
  match cs with
  | '\'' :: rest =>
    match readQuoted? '\'' false rest with
    | some (v, after) => .ok (unescape singleEscape? false v, after)
    | none => .error cs
  | '"' :: rest =>
    match readQuoted? '"' false rest with
    | some (v, after) => .ok (unescape doubleEscape? false v, after)
    | none => .error cs
  | _ =>
    let line := cs.takeWhile (· != '\n')
    .ok (trimEnd isSpace (dropComment line), cs.dropWhile (· != '\n'))

/-! ## Bindings -/

/-- The binding of a name and what follows its line. -/
def readBinding (cs : List Char) : Except (List Char) (Binding × List Char) :=
  match readName? cs with
  | none => .error cs
  | some (name, rest) =>
    match rest.dropWhile isLineSpace with
    | '=' :: rest => do
      let (value, rest) ← readValue (rest.dropWhile isLineSpace)
      let rest ← lineEnd rest
      return (⟨String.ofList name, some (String.ofList value)⟩, rest)
    | rest => do
      let rest ← lineEnd rest
      return (⟨String.ofList name, none⟩, rest)

/-- The bindings of a file, in order. Where a line cannot be read, reading goes on behind the line
    on which it stopped. Every line takes a character, so the length of the file is fuel
    enough. -/
def readBindings (fuel : Nat) (cs : List Char) : List Binding :=
  match fuel with
  | 0 => []
  | fuel + 1 =>
    match skipExport (cs.dropWhile isSpace) with
    | [] => []
    | '#' :: rest => readBindings fuel (nextLine rest)
    | cs =>
      match readBinding cs with
      | .ok (b, rest) => b :: readBindings fuel rest
      | .error left => readBindings fuel (nextLine left)

/-! ## References -/

/-- The reference behind a dollar sign: its name, its default and what follows it. -/
def readReference? : List Char → Option (List Char × Option (List Char) × List Char)
  | '\x7b' :: cs =>
    let isPart := fun c => c != '\x7d' && c != ':'
    let name := cs.takeWhile isPart
    match cs.dropWhile isPart with
    | '\x7d' :: rest => some (name, none, rest)
    | ':' :: '-' :: rest =>
      match rest.dropWhile (· != '\x7d') with
      | _ :: after => some (name, some (rest.takeWhile (· != '\x7d')), after)
      | [] => none
    | _ => none
  | _ => none

/-- A value with its references replaced. -/
def expand (find? : String → Option String) (fuel : Nat) (cs : List Char) : List Char :=
  match fuel with
  | 0 => []
  | fuel + 1 =>
    match cs with
    | [] => []
    | c :: rest =>
      if c == '$' then
        match readReference? rest with
        | some (name, default?, after) =>
          let value := ((find? (String.ofList name)).map String.toList).getD (default?.getD [])
          value ++ expand find? fuel after
        | none => c :: expand find? fuel rest
      else c :: expand find? fuel rest

/-- The bindings with one more; a name that is bound already keeps its place. -/
def bind (b : Binding) : List Binding → List Binding
  | [] => [b]
  | a :: rest => if a.name == b.name then b :: rest else a :: bind b rest

/-- The value of a name in the bindings, or else in the environment. A name that is bound to no
    value counts as bound to the empty text. -/
def valueOf? (environment : List (String × String)) (bound : List Binding) (name : String) :
    Option String :=
  match bound.find? (·.name == name) with
  | some b => some (b.value.getD "")
  | none => (environment.reverse.find? (·.1 == name)).map (·.2)

/-- A binding with the references in its value replaced. -/
def resolve (environment : List (String × String)) (bound : List Binding) (b : Binding) : Binding :=
  { b with value := b.value.map fun v =>
      String.ofList (expand (valueOf? environment bound) (v.length + 1) v.toList) }

/-- The bindings of a file. -/
def read (environment : List (String × String)) (file : String) : List Binding :=
  let cs := normalizeBreaks false file.toList
  (readBindings (cs.length + 1) cs).foldl
    (fun bound b => bind (resolve environment bound b) bound) []

end SettingsFile

end ReversePolish
