import ReversePolish.Text.Upper

set_option autoImplicit false

/-! # Log levels

How much the command line says about its work. A level is set by name, in letters of either
case, and only the two lowest levels make a difference. -/

namespace ReversePolish

namespace CommandLine

/-- The log levels, the highest first. -/
inductive LogLevel where
  | critical
  | error
  | warning
  | info
  | debug
  /-- No level at all, which lets everything through. -/
  | unset
deriving DecidableEq, Repr

namespace LogLevel

/-- The names of the levels; two levels have a second name. -/
def names : List (String × LogLevel) :=
  [("CRITICAL", critical), ("FATAL", critical), ("ERROR", error), ("WARN", warning),
    ("WARNING", warning), ("INFO", info), ("DEBUG", debug), ("NOTSET", unset)]

/-- The level of a name, in letters of either case. -/
def ofName? (s : String) : Option LogLevel :=
  (names.find? (·.1 == upperText s)).map (·.2)

/-- Whether remarks on every step of the work are shown. -/
def showsDebug : LogLevel → Bool
  | debug | unset => true
  | _ => false

end LogLevel

end CommandLine

end ReversePolish
