import ReversePolish.Json.Basic
import ReversePolish.Text.Upper

set_option autoImplicit false

/-! # Requests and responses

The messages that a client and the service exchange. -/

namespace ReversePolish

namespace Service

/-- What a request carries. -/
inductive Body where
  | none
  /-- A text that claims to be JSON. -/
  | text (s : String)
  /-- A JSON value. -/
  | json (v : Json)

/-- A request. -/
structure Request where
  method : String
  /-- The path with what may follow it. -/
  target : String
  body : Body

namespace Request

/-- The method in upper case. -/
def verb (r : Request) : String :=
  upperText r.method

/-- The path, without query and fragment. -/
def path (r : Request) : String :=
  String.ofList (r.target.toList.takeWhile fun c => c != '?' && c != '#')

end Request

/-- What a response carries. -/
inductive Content where
  | json (v : Json)
  | text (s : String)

/-- A response. -/
structure Response where
  status : Nat
  content : Content

/-- A response with a detail and more fields. -/
def Response.detail (status : Nat) (detail : Json) (more : List (String × Json)) : Response :=
  ⟨status, .json (.object (("detail", detail) :: more))⟩

end Service

namespace Json

mutual

/-- Whether a response can carry the value: JSON has finite numbers only, and a ragged text has no
    UTF-8 form. -/
def isSendable : Json Text → Bool
  | null | bool _ | integer _ => true
  | float x => x.isFinite
  | string s => s.string?.isSome
  | array items => areSendable items
  | object members => membersAreSendable members

/-- Whether a response can carry the items of an array. -/
def areSendable : List (Json Text) → Bool
  | [] => true
  | v :: rest => isSendable v && areSendable rest

/-- Whether a response can carry the members of an object. -/
def membersAreSendable : List (Text × Json Text) → Bool
  | [] => true
  | (name, v) :: rest => name.string?.isSome && isSendable v && membersAreSendable rest

end

end Json

end ReversePolish
