import ReversePolish.CommandLine.Run
import ReversePolish.Proofs.Outcome

set_option autoImplicit false

/-! # Calls

A call names a command and a domain, and gives the text behind a flag or on standard input. The
value behind `=` is taken as it is, whatever it begins with; only the marker `--` is lost. -/

namespace ReversePolish

namespace CommandLine

/-- The arguments that call a command, which reads its text from standard input. -/
def callOnInput (c : Command) (d : Domain) : List String :=
  [c.name, "--domain", d.name]

/-- The arguments that call a command on a text. -/
def callOn (c : Command) (d : Domain) (text : String) : List String :=
  [c.name, "--domain", d.name, "--text=" ++ text]

theorem toList_attached (text : String) :
    ("--text=" ++ text).toList = '-' :: '-' :: 't' :: 'e' :: 'x' :: 't' :: '=' :: text.toList :=
  String.toList_append

/-- What stands behind `=` is the value of the flag. -/
theorem classify_attached (text : String) :
    Argument.classify Flag.ofCommand ("--text=" ++ text).toList =
      .ok (.flag .text true (some text.toList)) := by
  rw [toList_attached]
  rfl

theorem attached_ne_markerText (text : String) : "--text=" ++ text ≠ Argument.markerText := by
  intro h
  have hlist := congrArg String.toList h
  rw [toList_attached] at hlist
  cases hlist

/-- The roles of the arguments behind the name of the command. -/
theorem classifyAll_call (d : Domain) (text : String) :
    Argument.classifyAll Flag.ofCommand ["--domain", d.name, "--text=" ++ text] =
      .ok [.flag .domain true none, .plain d.name, .flag .text true (some text.toList)] := by
  have hmarker : (("--text=" ++ text) == Argument.markerText) = false :=
    beq_eq_false_iff_ne.2 (attached_ne_markerText text)
  have htext : Argument.classifyAll Flag.ofCommand ["--text=" ++ text] =
      .ok [.flag .text true (some text.toList)] := by
    rw [Argument.classifyAll, hmarker, classify_attached]
    rfl
  have hname : Argument.classifyAll Flag.ofCommand [d.name, "--text=" ++ text] =
      .ok [.plain d.name, .flag .text true (some text.toList)] := by
    rw [Argument.classifyAll, htext]
    cases d <;> rfl
  rw [Argument.classifyAll, hname]
  rfl

/-- The marker is no expression. -/
theorem ne_markerText_of_read {d : Domain} {text : String} {e : Expression}
    (h : Expression.read d text = .ok e) : text ≠ Argument.markerText := by
  rintro rfl
  have hfails : (Expression.read d Argument.markerText).toOption = none := by
    cases d <;> decide +kernel
  rw [h] at hfails
  cases hfails

theorem readCommandArguments_call (d : Domain) {text : String} (h : text ≠ Argument.markerText) :
    readCommandArguments ["--domain", d.name, "--text=" ++ text] =
      .ok ⟨.value (.plain text), .value d, []⟩ := by
  have hdomain : assign .domain d.name .empty = .ok ⟨.absent, .value d, []⟩ := by
    cases d <;> rfl
  have htext : assign .text text ⟨.absent, .value d, []⟩ =
      .ok ⟨.value (.plain text), .value d, []⟩ :=
    if_neg (by rwa [beq_iff_eq])
  rw [readCommandArguments, classifyAll_call]
  simp only [gather, String.ofList_toList, hdomain, htext, ok_bind]

theorem read_callOnInput (c : Command) (d : Domain) :
    Invocation.read (callOnInput c d) = .run c .absent (.value d) := by
  cases c <;> cases d <;> decide +kernel

theorem read_callOn (c : Command) (d : Domain) {text : String} (h : text ≠ Argument.markerText) :
    Invocation.read (callOn c d text) = .run c (.value (.plain text)) (.value d) := by
  have harguments := readCommandArguments_call d h
  have hcommand : Invocation.ofCommand [] c.name ["--domain", d.name, "--text=" ++ text] =
      .run c (.value (.plain text)) (.value d) := by
    rw [Invocation.ofCommand, Command.ofName?_name]
    dsimp only
    rw [harguments]
    rfl
  cases c <;> exact hcommand

/-! ## Runs -/

variable {set : Charset} {level : LogLevel} {c : Command} {d : Domain} {settings : Settings}
  {environment : List (String × String)} {file : Option String}

theorem invoke_of_settings (h : Settings.read environment file = .ok settings) (i : Invocation)
    (input : String) (set : Charset) :
    invoke environment file i input set = (reportUnder settings set i input).deliver set := by
  rw [invoke, h]

theorem run_of_settings {s : Start} (h : Settings.read s.environment s.file = .ok settings) :
    run s =
      (reportUnder settings s.charset (Invocation.read s.arguments) s.input).deliver s.charset :=
  invoke_of_settings h _ _ _

theorem reportUnder_of_level (h : LogLevel.ofName? settings.logLevel = some level)
    (i : Invocation) (input : String) :
    reportUnder settings set i input =
      reportInvocation level set settings.defaultDomain input i := by
  rw [reportUnder, h]

theorem reportUnder_callOnInput (h : LogLevel.ofName? settings.logLevel = some level)
    (text : String) :
    reportUnder settings set (Invocation.read (callOnInput c d)) text =
      reportText level set c d (trimText isSpace text) := by
  rw [reportUnder_of_level h, read_callOnInput]
  rfl

theorem reportUnder_callOn (h : LogLevel.ofName? settings.logLevel = some level) {text : String}
    (htext : text ≠ Argument.markerText) (input : String) :
    reportUnder settings set (Invocation.read (callOn c d text)) input =
      reportText level set c d text := by
  rw [reportUnder_of_level h, read_callOn c d htext]
  rfl

theorem run_callOn (hsettings : Settings.read environment file = .ok settings)
    (hlevel : LogLevel.ofName? settings.logLevel = some level) {text : String}
    (htext : text ≠ Argument.markerText) (input : String) (set : Charset) :
    run ⟨environment, file, callOn c d text, input, set⟩ =
      (reportText level set c d text).deliver set := by
  rw [run_of_settings hsettings]
  dsimp only
  rw [reportUnder_callOn hlevel htext]

/-- A command that is invoked on a text reports on it, whatever the text. -/
theorem invoke_on (hsettings : Settings.read environment file = .ok settings)
    (hlevel : LogLevel.ofName? settings.logLevel = some level) (text : Text) (input : String)
    (set : Charset) :
    invoke environment file (.run c (.value text) (.value d)) input set =
      (reportOn level set c d text).deliver set := by
  rw [invoke_of_settings hsettings, reportUnder_of_level hlevel]
  rfl

end CommandLine

end ReversePolish
