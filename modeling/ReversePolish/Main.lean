import ReversePolish.CommandLine.Run

set_option autoImplicit false

/-! # The program

Collects what a run is started with, runs it, and leaves its output on the channels of the
process. -/

namespace ReversePolish

namespace CommandLine

/-- The names that settings have in the environment, in either case. -/
def settingNames : List String :=
  ["default_domain", "max_expression_length", "log_level", "app_title", "app_version"].flatMap
    fun field =>
      let name := "rpntree_" ++ field
      [name, String.ofList (name.toList.map Char.toUpper)]

/-- The settings in the environment of the process. -/
def readEnvironment : IO (List (String × String)) :=
  settingNames.filterMapM fun name => do
    let value ← IO.getEnv name
    return value.map fun v => (name, v)

/-- The file of settings, if there is one. -/
def readFile : IO (Option String) := do
  try
    let text ← IO.FS.readFile ".env"
    return some text
  catch _ => return none

/-- All of standard input, behind what has been read of it. -/
partial def readInput (input : IO.FS.Stream) (sofar : String) : IO String := do
  let line ← input.getLine
  if line.isEmpty then return sofar else readInput input (sofar ++ line)

end CommandLine

end ReversePolish

open ReversePolish.CommandLine in
/-- Runs the command line. A run that breaks off says why and has code 1. -/
def main (args : List String) : IO UInt32 := do
  let environment ← readEnvironment
  let file ← readFile
  let input ← if (Invocation.read args).readsInput then readInput (← IO.getStdin) "" else pure ""
  let d := run ⟨environment, file, args, input, .utf8⟩
  (← IO.getStdout).putStr d.out
  (← IO.getStderr).putStr d.err
  match d.ending with
  | .exit code => return code.toUInt32
  | .failure f =>
    (← IO.getStderr).putStrLn f.message
    return 1
