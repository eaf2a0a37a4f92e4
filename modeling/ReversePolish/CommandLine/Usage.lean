import ReversePolish.CommandLine.Invocation

set_option autoImplicit false

/-! # Usage and help

What the command line says about itself: a line of usage, which also stands above every error in
the arguments, and the texts of help. Help is set in two columns, the second of which starts at
column 24. -/

namespace ReversePolish

namespace CommandLine

/-- The name of the program. -/
def programName : String := "rpntree"

/-- Choices between curly brackets. -/
def choices (names : List String) : String :=
  "\x7b" ++ ",".intercalate names ++ "\x7d"

/-- The choice of a command. -/
def commandChoice : String :=
  choices (Command.all.map (·.name))

/-- The choice of a domain. -/
def domainChoice : String :=
  choices (Domain.all.map (·.name))

/-- What stands for the value of a flag. -/
def valueName : Flag → Option String
  | .help => none
  | .text => some "TEXT"
  | .domain => some domainChoice

/-- A spelling of a flag with what stands for its value. -/
def withValueName (f : Flag) (spelling : String) : String :=
  match valueName f with
  | none => spelling
  | some v => spelling ++ " " ++ v

/-- The flag as a line of usage shows it. -/
def usageOf (f : Flag) : String :=
  "[" ++ withValueName f (f.spellings.headD "") ++ "]"

/-- The program as it is called, with the name of a command if there is one. -/
def calledName : Option Command → String
  | none => programName
  | some c => programName ++ " " ++ c.name

/-- The line of usage. -/
def usage (command : Option Command) : String :=
  let arguments := match command with
    | none => Flag.ofProgram.map usageOf ++ [commandChoice, "..."]
    | some _ => Flag.ofCommand.map usageOf
  "usage: " ++ calledName command ++ " " ++ " ".intercalate arguments ++ "\n"

/-- The report of an error in the arguments. -/
def usageReport (command : Option Command) (e : UsageError) : String :=
  usage command ++ calledName command ++ ": error: " ++ e.message ++ "\n"

/-! ## Help -/

/-- The column where explanations start. -/
def explanationColumn : Nat := 24

/-- A line of help with its explanation. -/
def helpLine (indent : Nat) (what explanation : String) : String :=
  let start := String.ofList (List.replicate indent ' ') ++ what
  let gap := List.replicate (explanationColumn - start.length) ' '
  start ++ String.ofList gap ++ explanation ++ "\n"

/-- What a flag is for, where help says so. -/
def purposeOf : Flag → Option String
  | .help => some "show this help message and exit"
  | .text => some "Wyrażenie postfiksowe (lub stdin)"
  | .domain => none

/-- The line of help on a flag. -/
def flagLine (f : Flag) : String :=
  let what := ", ".intercalate (f.spellings.map (withValueName f))
  match purposeOf f with
  | some purpose => helpLine 2 what purpose
  | none => "  " ++ what ++ "\n"

/-- The lines of help on some flags. -/
def flagLines (flags : List Flag) : String :=
  "options:\n" ++ String.join (flags.map flagLine)

/-- The lines of help on all commands. -/
def commandLines : String :=
  "positional arguments:\n  " ++ commandChoice ++ "\n" ++
    String.join (Command.all.map fun c => helpLine 4 c.name c.purpose)

/-- The text of help. -/
def help : Option Command → String
  | none =>
    usage none ++ "\n" ++ programName ++ " — drzewa wyrażeń z notacji postfiksowej (RPN)\n\n" ++
      commandLines ++ "\n" ++ flagLines Flag.ofProgram
  | some c => usage (some c) ++ "\n" ++ flagLines Flag.ofCommand

end CommandLine

end ReversePolish
