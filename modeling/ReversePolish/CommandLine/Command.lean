set_option autoImplicit false

/-! # Commands

What the program can be asked to do with an expression on its command line. -/

namespace ReversePolish

namespace CommandLine

/-- The commands. -/
inductive Command where
  /-- The value. -/
  | evaluate
  /-- The form with the operators between their operands. -/
  | infixForm
  /-- The form with the operators in front of their operands. -/
  | prefixForm
  | diagram
  /-- The steps from the leaves to the root. -/
  | steps
  /-- Everything at once, in a table. -/
  | summary
deriving DecidableEq, Repr

namespace Command

/-- All commands, in the order in which they are offered. -/
def all : List Command :=
  [evaluate, infixForm, prefixForm, diagram, steps, summary]

/-- The name of a command. -/
def name : Command → String
  | evaluate => "eval"
  | infixForm => "infix"
  | prefixForm => "prefix"
  | diagram => "tree"
  | steps => "steps"
  | summary => "show"

/-- What a command is for. -/
def purpose : Command → String
  | evaluate => "Oblicz wartość wyrażenia"
  | infixForm => "Postać infiksowa z pełnym nawiasowaniem"
  | prefixForm => "Postać prefiksowa (styl Scheme)"
  | diagram => "Diagram ASCII drzewa"
  | steps => "Kroki obliczeń"
  | summary => "Wartość, wszystkie postacie i miary drzewa"

/-- The command of that exact name. -/
def ofName? (s : String) : Option Command :=
  all.find? (·.name == s)

theorem ofName?_name (c : Command) : ofName? c.name = some c := by
  cases c <;> rfl

end Command

end CommandLine

end ReversePolish
