import ReversePolish.Lenient
import ReversePolish.Settings.File

set_option autoImplicit false

/-! # Settings

The settings come from the environment, from a file of settings, or from their defaults, in this
order. The name of a setting starts with `RPNTREE_` there and may be in either case; its letters
are ASCII. Names that are no settings do not matter. -/

namespace ReversePolish

/-- The settings of the program. -/
structure Settings where
  defaultDomain : Domain
  /-- The number of characters that a request may have. -/
  maxExpressionLength : Int
  logLevel : String
  appTitle : String
  appVersion : String
deriving DecidableEq, Repr

namespace Settings

/-- The settings where nothing is set. -/
def default : Settings :=
  ⟨.arithmetic, 10000, "INFO", "rpntree", "0.1.0"⟩

/-- A name in lower case. -/
def lowerName (name : String) : String :=
  String.ofList (name.toList.map Char.toLower)

/-- Where the values of settings come from. -/
structure Sources where
  environment : List (String × String)
  bindings : List SettingsFile.Binding

/-- The sources of an environment and a file, if there is one. -/
def Sources.of (environment : List (String × String)) (file : Option String) : Sources :=
  ⟨environment, (file.map (SettingsFile.read environment)).getD []⟩

/-- The text that a setting is given; the last one where several names differ in case only. -/
def Sources.text? (s : Sources) (field : String) : Option String :=
  let name := "rpntree_" ++ field
  match s.environment.reverse.find? fun (n, _) => lowerName n == name with
  | some (_, v) => some v
  | none => (s.bindings.reverse.find? fun b => lowerName b.name == name).bind (·.value)

/-- The setting of a field: read from its text, or the default. -/
def Sources.field {α : Type} (s : Sources) (field : String) (default : α)
    (read : String → Except Fault α) : Except FaultReport α :=
  match s.text? field with
  | none => .ok default
  | some text =>
    match read text with
    | .ok a => .ok a
    | .error f => .error (.ofField field f)

/-- The domain of that name. -/
def readDomain (text : String) : Except Fault Domain :=
  match Domain.ofName? text with
  | some d => .ok d
  | none => .error .notADomain

/-- The fault of a field that has one. -/
def faultOf {α : Type} : Except FaultReport α → List FaultReport
  | .ok _ => []
  | .error f => [f]

/-- The settings of the given sources, or the faults of all fields in order. -/
def ofSources (s : Sources) : Except (List FaultReport) Settings :=
  let domain := s.field "default_domain" default.defaultDomain readDomain
  let length := s.field "max_expression_length" default.maxExpressionLength
    fun text => integerOfText text.toList
  match domain, length with
  | .ok domain, .ok length =>
    .ok
      { defaultDomain := domain
        maxExpressionLength := length
        logLevel := (s.text? "log_level").getD default.logLevel
        appTitle := (s.text? "app_title").getD default.appTitle
        appVersion := (s.text? "app_version").getD default.appVersion }
  | domain, length => .error (faultOf domain ++ faultOf length)

/-- The settings of an environment and a file, if there is one. -/
def read (environment : List (String × String)) (file : Option String) :
    Except (List FaultReport) Settings :=
  ofSources (.of environment file)

end Settings

end ReversePolish
