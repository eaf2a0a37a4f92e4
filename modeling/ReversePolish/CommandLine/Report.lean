import ReversePolish.Fault
import ReversePolish.Rendering
import ReversePolish.SyntaxError
import ReversePolish.Text.Charset

set_option autoImplicit false

/-! # Reports

What a run of the command line writes, and how it ends. A report is put together first and
delivered afterwards over channels that may not carry every character. A write to standard output
that holds a character outside the set is not made at all and ends the run; standard error takes
every text, with such characters spelled out. -/

namespace ReversePolish

namespace CommandLine

/-! ## Failures -/

/-- Why a run breaks off. -/
inductive Failure where
  | settings (faults : List FaultReport)
  /-- The log level of the settings has no such name. -/
  | unknownLevel (name : String)
  /-- The flag for the domain was given nothing. -/
  | noDomain
  /-- The flag for the text was given nothing. -/
  | noText
  | tooManyDigits (digits : Nat)
  | evaluation (e : EvaluationError)
  | rendering (e : RenderingError)
  /-- The character at a position of a write cannot be carried. -/
  | unencodable (set : Charset) (c : Char) (position : Nat) (inTable : Bool)
deriving DecidableEq, Repr

namespace Failure

/-- What messages call the codec of a character set. -/
def codecName : Charset → String
  | .utf8 => "utf-8"
  | .ascii => "ascii"
  | .latin3 => "charmap"

/-- Why a codec cannot carry a character. -/
def codecReason : Charset → String
  | .utf8 | .ascii => "ordinal not in range(128)"
  | .latin3 => "character maps to <undefined>"

/-- The advice that follows where a table cannot be carried. -/
def tableAdvice : String :=
  "\n*** You may need to add PYTHONIOENCODING=utf-8 to your environment ***"

/-- The wording of a failure. -/
def message : Failure → String
  | settings faults => "\n".intercalate (faults.map (·.fault.message))
  | unknownLevel name => "Unknown level: " ++ quoted name
  | noDomain => "[] is not a valid Domain"
  | noText => "'list' object has no attribute 'strip'"
  | tooManyDigits n => tooManyDigitsMessage n
  | evaluation e => e.message
  | rendering e => e.message
  | unencodable set c position inTable =>
    "'" ++ codecName set ++ "' codec can't encode character '" ++
      String.ofList (codePointEscape c) ++ "' in position " ++ Decimal.natText position ++ ": " ++
      codecReason set ++ if inTable then tableAdvice else ""

end Failure

/-! ## Reports -/

/-- One piece of output. -/
inductive Write where
  | out (text : String)
  /-- A table on standard output. -/
  | table (text : String)
  | err (text : String)
deriving DecidableEq, Repr

/-- How a run ends. -/
inductive Ending where
  | exit (code : Nat)
  | failure (f : Failure)
deriving DecidableEq, Repr

/-- What a run writes, in order, and how it ends. -/
structure Report where
  writes : List Write
  ending : Ending
deriving DecidableEq, Repr

namespace Report

/-- A run that breaks off at once. -/
def failing (f : Failure) : Report :=
  ⟨[], .failure f⟩

/-- A run that writes some more before. -/
def after (writes : List Write) (r : Report) : Report :=
  ⟨writes ++ r.writes, r.ending⟩

end Report

/-! ## Delivery -/

/-- What a run leaves on its channels, and how it ends. -/
structure Delivery where
  out : String
  err : String
  ending : Ending
deriving DecidableEq, Repr

/-- The delivery with a text in front on standard output, or the end at a character that cannot
    be carried. -/
def Delivery.writeOut (set : Charset) (inTable : Bool) (text : String) (rest : Delivery) :
    Delivery :=
  match set.firstOutside? text with
  -- what would have come after a refused write is not written on either channel
  | none => { rest with out := text ++ rest.out }
  | some (position, c) => ⟨"", "", .failure (.unencodable set c position inTable)⟩

/-- The delivery of writes and an ending. -/
def deliverWrites (set : Charset) (ending : Ending) : List Write → Delivery
  | [] => ⟨"", "", ending⟩
  | .out text :: rest => (deliverWrites set ending rest).writeOut set false text
  | .table text :: rest => (deliverWrites set ending rest).writeOut set true text
  | .err text :: rest =>
    let d := deliverWrites set ending rest
    { d with err := set.spellOut text ++ d.err }

theorem Delivery.writeOut_of_hasAll {set : Charset} {text : String} (inTable : Bool)
    (rest : Delivery) (h : set.hasAll text = true) :
    rest.writeOut set inTable text = { rest with out := text ++ rest.out } := by
  unfold writeOut
  rw [Charset.firstOutside?_eq_none_iff.2 h]

/-- The delivery of a report. -/
def Report.deliver (set : Charset) (r : Report) : Delivery :=
  deliverWrites set r.ending r.writes

end CommandLine

end ReversePolish
