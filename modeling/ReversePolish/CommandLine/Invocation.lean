import ReversePolish.CommandLine.Argument
import ReversePolish.Text.Ragged

set_option autoImplicit false

/-! # Invocations

What the arguments ask for. Arguments are taken from left to right, first by the program up to
the name of a command and then by the command. The first request for help or error ends the
reading. Arguments without use are collected and reported at the end. The arguments that are read
here are `String`s, while an invocation can have any text. -/

namespace ReversePolish

namespace CommandLine

/-- What a flag with a value has been given. -/
inductive Given (α : Type) where
  | absent
  | value (a : α)
  /-- The marker `--` was attached as the value. It is taken out and leaves nothing. -/
  | nothing
deriving DecidableEq, Repr

/-- What the arguments of a command say. -/
structure CommandArguments where
  text : Given Text
  domain : Given Domain
  /-- The arguments without use. -/
  extras : List String
deriving DecidableEq, Repr

namespace CommandArguments

/-- No arguments. -/
def empty : CommandArguments :=
  ⟨.absent, .absent, []⟩

/-- With one more argument that has no use. -/
def withExtra (a : CommandArguments) (s : String) : CommandArguments :=
  { a with extras := a.extras ++ [s] }

end CommandArguments

/-- What ends the reading of arguments early. -/
inductive Stop where
  | help
  | error (e : UsageError)
deriving DecidableEq, Repr

/-! ## Flags -/

/-- What the flag for help comes to. Further short flags may be attached to it; they must be in
    order, the last of them with its value, and then help is given. -/
def helpStop (flags : List Flag) (long : Bool) (rest : List Argument) : List Char → Stop
  | [] => .help
  | c :: cs =>
    if long then .error (.valueIgnored .help (String.ofList (c :: cs)))
    else
      match flagOf? flags ['-', c] with
      | none => .error (.valueIgnored .help (String.ofList (c :: cs)))
      | some f =>
        -- the chain ends with the first flag that takes what is left of it as a value
        if !f.takesValue then helpStop flags long rest cs
        else
          match cs, rest with
          | [], .plain _ :: _ => .help
          | [], _ => .error (.valueExpected f)
          | _, _ => .help

/-- What the flag for help comes to, with or without something attached. -/
def stopAtHelp (flags : List Flag) (long : Bool) (attached : Option (List Char))
    (rest : List Argument) : Stop :=
  match attached with
  | none => .help
  | some [] => .error (.valueIgnored .help "")
  | some cs => helpStop flags long rest cs

/-- The arguments with the value of a flag. -/
def assign (f : Flag) (value : String) (a : CommandArguments) : Except Stop CommandArguments :=
  match f with
  | .help => .error .help
  | .text =>
    if value == Argument.markerText then .ok { a with text := .nothing }
    else .ok { a with text := .value (.plain value) }
  | .domain =>
    if value == Argument.markerText then .ok { a with domain := .nothing }
    else
      match Domain.ofName? value with
      | some d => .ok { a with domain := .value d }
      | none => .error (.error (.notADomain value))

/-! ## The arguments of a command -/

/-- The arguments of a command, taken from left to right. -/
def gather (a : CommandArguments) : List Argument → Except Stop CommandArguments
  | [] => .ok a
  | .plain s :: rest => gather (a.withExtra s) rest
  | .marker :: rest => gather (a.withExtra Argument.markerText) rest
  | .unknown s :: rest => gather (a.withExtra s) rest
  | .flag .help long attached :: rest => .error (stopAtHelp Flag.ofCommand long attached rest)
  | .flag f _ (some value) :: rest => do
    let a ← assign f (String.ofList value) a
    gather a rest
  | .flag f _ none :: .plain value :: rest => do
    let a ← assign f value a
    gather a rest
  | .flag f _ none :: _ => .error (.error (.valueExpected f))

/-- The arguments of a command. -/
def readCommandArguments (args : List String) : Except Stop CommandArguments :=
  match Argument.classifyAll Flag.ofCommand args with
  | .ok as => gather .empty as
  | .error e => .error (.error e)

/-! ## The whole line -/

/-- What the whole line asks for. -/
inductive Invocation where
  /-- Help on the program, or on a command. -/
  | help (command : Option Command)
  /-- An error in the arguments of the program, or of a command. -/
  | error (command : Option Command) (e : UsageError)
  | run (command : Command) (text : Given Text) (domain : Given Domain)
deriving DecidableEq, Repr

namespace Invocation

/-- The invocation that an early end comes to. -/
def ofStop (command : Option Command) : Stop → Invocation
  | .help => .help command
  | .error e => .error command e

/-- The invocation of a command by its name, behind the given arguments without use. -/
def ofCommand (extras : List String) (name : String) (args : List String) : Invocation :=
  match Command.ofName? name with
  | none => .error none (.notACommand name)
  | some c =>
    match readCommandArguments args with
    | .error stop => ofStop (some c) stop
    | .ok a =>
      match extras ++ a.extras with
      | [] => .run c a.text a.domain
      | unused => .error none (.unrecognized unused)

/-- The invocation of a line whose arguments so far had no use. -/
def readAfter (extras : List String) : List String → Invocation
  | [] => .error none .commandRequired
  | s :: rest =>
    if s == Argument.markerText then
      -- the marker cannot name a command, but it stands where one is expected
      if rest.isEmpty then .error none .commandRequired else ofCommand extras s rest
    else
      match Argument.classify Flag.ofProgram s.toList with
      | .ok (.unknown s) => readAfter (extras ++ [s]) rest
      | .ok (.flag _ long attached) => ofStop none (stopAtHelp Flag.ofProgram long attached [])
      | .ok _ => ofCommand extras s rest
      | .error e => .error none e

/-- The invocation of a line. -/
def read (args : List String) : Invocation :=
  readAfter [] args

/-- Whether the text of the expression is to be read from standard input. -/
def readsInput : Invocation → Bool
  | run _ .absent _ => true
  | _ => false

end Invocation

end CommandLine

end ReversePolish
