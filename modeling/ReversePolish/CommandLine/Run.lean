import ReversePolish.CommandLine.LogLevel
import ReversePolish.CommandLine.Report
import ReversePolish.CommandLine.Usage
import ReversePolish.Reading.Ragged
import ReversePolish.Settings.Basic
import ReversePolish.Table

set_option autoImplicit false

/-! # Running the command line

A run reads the settings, the log level, the arguments and the text, in this order, and then does
what the command says. A text that is no expression ends it with code 1; arguments that cannot be
read, or a value that divides by zero, with code 2. -/

namespace ReversePolish

namespace CommandLine

/-! ## Remarks -/

/-- A remark on the work, where the level shows it. -/
def remark (level : LogLevel) (origin text : String) : List Write :=
  if level.showsDebug then [.err ("DEBUG:" ++ origin ++ ":" ++ text ++ "\n")] else []

/-- The remark on a text that has been read. -/
def readingRemark (level : LogLevel) (d : Domain) (text : String) : List Write :=
  remark level "rpntree.parser"
    ("Parsed " ++ Decimal.natText (tokenize text).length ++ " " ++ d.name ++ " tokens")

/-- The remark on a division by zero. -/
def divisionRemark (level : LogLevel) (message : String) : List Write :=
  remark level "rpntree.evaluator" ("Evaluation failed (" ++ divisionByZeroKind ++ "): " ++ message)

/-! ## Commands -/

/-- A line on standard output. -/
def line (text : String) : Write :=
  .out (text ++ "\n")

/-- Writes what a trace shows. -/
def reportTrace (level : LogLevel) (e : Expression) (present : Trace → List Write) : Report :=
  match e.trace with
  | .ok t => ⟨present t, .exit 0⟩
  | .error (.divisionByZero a b) =>
    let message := (EvaluationError.divisionByZero a b).message
    ⟨divisionRemark level message ++
      [.err ("Błąd obliczeń [" ++ divisionByZeroKind ++ "]: " ++ message ++ "\n")], .exit 2⟩
  | .error e => .failing (.evaluation e)

/-- The steps with their numbers, the first of which is given. -/
def numberedSteps (n : Nat) : List String → List Write
  | [] => []
  | step :: rest =>
    line ("  [" ++ Decimal.natText n ++ "] " ++ step) :: numberedSteps (n + 1) rest

/-- The steps of a trace, or its value where there are none. -/
def stepWrites (t : Trace) : List Write :=
  match t.lines with
  | [] => [line ("  (brak operatorów) = " ++ t.display)]
  | steps => numberedSteps 1 steps

/-- Writes one form. -/
def reportForm : Except RenderingError String → Report
  | .ok text => ⟨[line text], .exit 0⟩
  | .error e => .failing (.rendering e)

/-! ## The summary -/

/-- The value as the table shows it. -/
def shownValue (t : Trace) : String :=
  if t.value.isEmpty then t.display ++ " (puste przecięcie)" else t.display

/-- The table of an expression. Characters that cannot be carried are replaced in it, but not in
    its title. -/
def summaryTable (set : Charset) (e : Expression) (value : String) (r : Rendering) (s : Stats) :
    Table where
  title := "Wyrażenie (" ++ e.domain.name ++ ")"
  rows :=
    [("postfix", e.source), ("wartość", value), ("infix", r.infixForm), ("prefix", r.prefixForm),
      ("wysokość", Decimal.natText s.height), ("liście", Decimal.natText s.leafCount),
      ("operatory", Decimal.natText s.operatorCount)].map
      fun (name, value) => (set.replace name, set.replace value)

/-- Writes the table and the diagram. -/
def reportTable (set : Charset) (e : Expression) (value : String) (r : Rendering) (s : Stats) :
    Report :=
  ⟨[.table (summaryTable set e value r s).text, line r.diagram], .exit 0⟩

/-- Writes everything about an expression. A division by zero is shown as the value. -/
def reportSummary (level : LogLevel) (set : Charset) (e : Expression) : Report :=
  match e.render, e.stats? with
  | .error f, _ => .failing (.rendering f)
  | .ok _, none => .failing (.rendering .tooDeep)
  | .ok r, some s =>
    match e.trace with
    | .ok t => reportTable set e (shownValue t) r s
    | .error (.divisionByZero a b) =>
      let message := (EvaluationError.divisionByZero a b).message
      (reportTable set e ("BŁĄD: " ++ message) r s).after (divisionRemark level message)
    | .error f => .failing (.evaluation f)

/-- What a command writes about an expression. -/
def reportCommand (level : LogLevel) (set : Charset) (e : Expression) : Command → Report
  | .evaluate => reportTrace level e fun t => [line t.display]
  | .infixForm => reportForm e.infixForm
  | .prefixForm => reportForm e.prefixForm
  | .diagram => reportForm e.diagram
  | .steps => reportTrace level e stepWrites
  | .summary => reportSummary level set e

/-! ## The run -/

/-- The report on a text that is no expression. -/
def reportSyntax (kind : SyntaxError.Kind) (message : String) : Report :=
  ⟨[.err ("Błąd parsowania [" ++ kind.name ++ "]: " ++ message ++ "\n")], .exit 1⟩

/-- The report on a text that cannot be read. -/
def reportFailure : ReadingFailure → Report
  | .syntaxError e => reportSyntax e.kind e.message
  | .tooManyDigits n => .failing (.tooManyDigits n)

/-- A command over a text of a domain. -/
def reportText (level : LogLevel) (set : Charset) (c : Command) (d : Domain) (text : String) :
    Report :=
  match Expression.read d text with
  | .ok e => (reportCommand level set e c).after (readingRemark level d text)
  | .error f => reportFailure f

/-- Any command over a ragged text of a domain. -/
def reportRagged (d : Domain) (t : RaggedText) : Report :=
  match t.failure d with
  | .earlier f => reportFailure f
  | .badLiteral cause token position =>
    reportSyntax (SyntaxError.kindOfLiteral cause)
      (SyntaxError.messageOfLiteral (SyntaxError.placeOfQuoted token.quoted position) cause)

/-- A command over any text of a domain. -/
def reportOn (level : LogLevel) (set : Charset) (c : Command) (d : Domain) : Text → Report
  | .plain text => reportText level set c d text
  | .ragged t => reportRagged d t

/-- A command with what its flags were given. A text that was not given is read from standard
    input, without the space around it. -/
def reportGiven (level : LogLevel) (set : Charset) (default : Domain) (input : String)
    (c : Command) (text : Given Text) (domain : Given Domain) : Report :=
  let reportIn (d : Domain) : Report :=
    match text with
    | .value text => reportOn level set c d text
    | .absent => reportText level set c d (trimText isSpace input)
    | .nothing => .failing .noText
  -- the domain counts before the text
  match domain with
  | .value d => reportIn d
  | .absent => reportIn default
  | .nothing => .failing .noDomain

/-- What a line asks for, under the settings. -/
def reportInvocation (level : LogLevel) (set : Charset) (default : Domain) (input : String) :
    Invocation → Report
  | .help c => ⟨[.out (help c)], .exit 0⟩
  | .error c e => ⟨[.err (usageReport c e)], .exit 2⟩
  | .run c text domain => reportGiven level set default input c text domain

/-- An invocation under given settings. -/
def reportUnder (settings : Settings) (set : Charset) (i : Invocation) (input : String) :
    Report :=
  match LogLevel.ofName? settings.logLevel with
  | none => .failing (.unknownLevel (upperText settings.logLevel))
  | some level => reportInvocation level set settings.defaultDomain input i

/-- What an invocation leaves under the settings of the environment and of the file. -/
def invoke (environment : List (String × String)) (file : Option String) (i : Invocation)
    (input : String) (set : Charset) : Delivery :=
  match Settings.read environment file with
  | .error faults => (Report.failing (.settings faults)).deliver set
  | .ok settings => (reportUnder settings set i input).deliver set

/-- What a run is started with. -/
structure Start where
  /-- The names and values of the environment. -/
  environment : List (String × String)
  /-- The file of settings, if there is one. -/
  file : Option String
  arguments : List String
  input : String
  /-- The characters that the output channels can carry. -/
  charset : Charset
deriving DecidableEq, Repr

/-- A run of the command line. -/
def run (s : Start) : Delivery :=
  invoke s.environment s.file (Invocation.read s.arguments) s.input s.charset

end CommandLine

end ReversePolish
