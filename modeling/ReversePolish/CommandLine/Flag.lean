import ReversePolish.CommandLine.Command
import ReversePolish.Domain
import ReversePolish.Text.Quoted

set_option autoImplicit false

/-! # Flags

The flags of the command line, and what can be wrong with its arguments. The program as a whole
knows `-h` alone; every command knows all three flags. -/

namespace ReversePolish

namespace CommandLine

/-- The flags. -/
inductive Flag where
  | help
  /-- The text of the expression. -/
  | text
  | domain
deriving DecidableEq, Repr

namespace Flag

/-- The flags of a command. -/
def ofCommand : List Flag :=
  [help, text, domain]

/-- The flags of the program as a whole. -/
def ofProgram : List Flag :=
  [help]

/-- The spellings of a flag. -/
def spellings : Flag → List String
  | help => ["-h", "--help"]
  | text => ["--text", "-t"]
  | domain => ["--domain", "-d"]

/-- Whether a value belongs to the flag. -/
def takesValue : Flag → Bool
  | help => false
  | text | domain => true

/-- What messages call the flag. -/
def title (f : Flag) : String :=
  "/".intercalate f.spellings

end Flag

/-- The spellings of some flags, each with its flag. -/
def spelled (flags : List Flag) : List (List Char × Flag) :=
  flags.flatMap fun f => f.spellings.map fun s => (s.toList, f)

/-- The flag of that exact spelling. -/
def flagOf? (flags : List Flag) (s : List Char) : Option Flag :=
  ((spelled flags).find? (·.1 == s)).map (·.2)

/-! ## Errors -/

/-- What is wrong with the arguments. -/
inductive UsageError where
  /-- An abbreviation fits several flags. -/
  | ambiguous (argument : String) (spellings : List String)
  /-- A flag that takes a value has none. -/
  | valueExpected (f : Flag)
  /-- A flag that takes no value has one. -/
  | valueIgnored (f : Flag) (value : String)
  | notADomain (value : String)
  | notACommand (value : String)
  | commandRequired
  /-- Arguments that have no use. -/
  | unrecognized (arguments : List String)
deriving DecidableEq, Repr

namespace UsageError

/-- A value outside a list of choices. -/
def invalidChoice (value : String) (choices : List String) : String :=
  "invalid choice: " ++ quoted value ++ " (choose from " ++
    ", ".intercalate (choices.map quoted) ++ ")"

/-- The wording of an error. -/
def message : UsageError → String
  | ambiguous argument spellings =>
    "ambiguous option: " ++ argument ++ " could match " ++ ", ".intercalate spellings
  | valueExpected f => "argument " ++ f.title ++ ": expected one argument"
  | valueIgnored f value =>
    "argument " ++ f.title ++ ": ignored explicit argument " ++ quoted value
  | notADomain value =>
    "argument " ++ Flag.domain.title ++ ": " ++ invalidChoice value (Domain.all.map (·.name))
  | notACommand value => "argument command: " ++ invalidChoice value (Command.all.map (·.name))
  | commandRequired => "the following arguments are required: command"
  | unrecognized arguments => "unrecognized arguments: " ++ " ".intercalate arguments

end UsageError

end CommandLine

end ReversePolish
