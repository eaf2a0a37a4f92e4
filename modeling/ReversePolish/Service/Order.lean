import ReversePolish.Document
import ReversePolish.Json.Reader
import ReversePolish.Service.Message

set_option autoImplicit false

/-! # Orders

A client orders an evaluation or a rendering with a JSON object that holds a text and may hold a
domain. A body that is no such object is refused with the faults of its fields, the text first.
The report of a fault repeats the value that it finds fault with, so there is no report where that
value cannot be sent. An object whose text is ragged is in order, and its text is handled like any
other, but it has a type of its own. -/

namespace ReversePolish

namespace Service

/-- A text and the domain to read it in. -/
structure Order where
  text : String
  /-- The domain, where it is not the one of the settings. -/
  domain : Option Domain
deriving DecidableEq, Repr

/-- A ragged text and the domain to read it in. -/
structure RaggedOrder where
  text : RaggedText
  /-- The domain, where it is not the one of the settings. -/
  domain : Option Domain
deriving DecidableEq, Repr

/-- Why a body is no order. -/
inductive BodyError where
  | faults (reports : List FaultReport)
  /-- The report of the faults would repeat what cannot be sent. -/
  | unreportable
  /-- The body cannot be read at all. -/
  | unreadable
  /-- The body orders something over a ragged text. -/
  | ragged (o : RaggedOrder)
deriving DecidableEq, Repr

/-- A fault and the value that its report repeats. -/
structure Objection where
  report : FaultReport
  value : Json Text

/-- What objections to a body come to. -/
def BodyError.ofObjections (os : List Objection) : BodyError :=
  if os.all (·.value.isSendable) then faults (os.map (·.report)) else unreportable

namespace Order

/-- A fault of a field of the body. -/
def faultIn (name : String) (f : Fault) : FaultReport :=
  ⟨f, [.name "body", .name name]⟩

/-- A fault of the body as a whole. -/
def faultOfBody (f : Fault) : FaultReport :=
  ⟨f, [.name "body"]⟩

/-- The text among the members of an object. -/
def textOf (members : List (Text × Json Text)) : Except Objection Text :=
  match Json.lookUp? (.plain "text") members with
  -- what is repeated for a field that is not there is the whole object
  | none => .error ⟨faultIn "text" .missing, .object members⟩
  | some (.string s) => .ok s
  | some v => .error ⟨faultIn "text" .notAString, v⟩

/-- The domain among the members of an object, which may be left out or null. -/
def domainOf (members : List (Text × Json Text)) : Except Objection (Option Domain) :=
  match Json.lookUp? (.plain "domain") members with
  | none | some .null => .ok none
  | some v =>
    match v.plain?.bind Domain.ofJson? with
    | some d => .ok (some d)
    | none => .error ⟨faultIn "domain" .notADomain, v⟩

/-- The order over a text. -/
def ofText (domain : Option Domain) : Text → Except BodyError Order
  | .plain s => .ok ⟨s, domain⟩
  | .ragged t => .error (.ragged ⟨t, domain⟩)

/-- The order of an object. -/
def ofMembers (members : List (Text × Json Text)) : Except BodyError Order :=
  match textOf members, domainOf members with
  | .ok text, .ok domain => ofText domain text
  | .error a, .ok _ => .error (.ofObjections [a])
  | .ok _, .error b => .error (.ofObjections [b])
  | .error a, .error b => .error (.ofObjections [a, b])

/-- The order of a value. -/
def ofJson : Json Text → Except BodyError Order
  | .null => .error (.faults [faultOfBody .missing])
  | .object members => ofMembers members
  | v => .error (.ofObjections [⟨faultOfBody .notAnObject, v⟩])

/-- The order of a body. -/
def ofBody : Body → Except BodyError Order
  | .none => .error (.faults [faultOfBody .missing])
  | .json v => ofJson (v.map .plain)
  | .text s =>
    if s.isEmpty then .error (.faults [faultOfBody .missing])
    else
      match Json.readDocument s with
      | .ok v => ofJson v
      | .error (.malformed offset) =>
        .error (.faults [⟨.malformed, [.name "body", .offset offset]⟩])
      | .error .refused => .error .unreadable

end Order

end Service

end ReversePolish
