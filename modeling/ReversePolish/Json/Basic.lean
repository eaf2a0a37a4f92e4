import ReversePolish.Binary64.Text
import ReversePolish.Text.Ragged

set_option autoImplicit false

/-! # JSON values

A number without fraction and exponent is an integer of any size, any other one a binary64
number. The members of an object keep their order, and of several with one name the last one
counts. The texts of a value that is written are `String`s; those of a value that has been read
can be ragged. -/

namespace ReversePolish

/-- A JSON value over a type of texts. -/
inductive Json (τ : Type := String) where
  | null
  | bool (b : Bool)
  | integer (i : Int)
  | float (x : Binary64)
  | string (s : τ)
  | array (items : List (Json τ))
  | object (members : List (τ × Json τ))

namespace Json

variable {σ τ : Type}

/-- The last member of a name. -/
def lookUp? [BEq τ] (name : τ) (members : List (τ × Json τ)) : Option (Json τ) :=
  (members.reverse.find? (·.1 == name)).map (·.2)

/-- The member of a name, if the value is an object that has one. -/
def member? (name : String) : Json → Option Json
  | object members => lookUp? name members
  | _ => none

/-- A value, or null in its absence. -/
def ofOption {α : Type} (f : α → Json) : Option α → Json
  | some a => f a
  | none => null

/-! ## Texts -/

mutual

/-- The value with other texts. -/
def map (f : σ → τ) : Json σ → Json τ
  | null => null
  | bool b => bool b
  | integer i => integer i
  | float x => float x
  | string s => string (f s)
  | array items => array (mapItems f items)
  | object members => object (mapMembers f members)

/-- The items of an array with other texts. -/
def mapItems (f : σ → τ) : List (Json σ) → List (Json τ)
  | [] => []
  | v :: rest => map f v :: mapItems f rest

/-- The members of an object with other texts. -/
def mapMembers (f : σ → τ) : List (σ × Json σ) → List (τ × Json τ)
  | [] => []
  | (name, v) :: rest => (f name, map f v) :: mapMembers f rest

end

mutual

/-- The value over `String`s, if none of its texts is ragged. -/
def plain? : Json Text → Option Json
  | null => some null
  | bool b => some (bool b)
  | integer i => some (integer i)
  | float x => some (float x)
  | string s => s.string?.map string
  | array items => (plainItems? items).map array
  | object members => (plainMembers? members).map object

/-- The items of an array over `String`s, if none of their texts is ragged. -/
def plainItems? : List (Json Text) → Option (List Json)
  | [] => some []
  | v :: rest => do
    let v ← plain? v
    let rest ← plainItems? rest
    return v :: rest

/-- The members of an object over `String`s, if none of their texts is ragged. -/
def plainMembers? : List (Text × Json Text) → Option (List (String × Json))
  | [] => some []
  | (name, v) :: rest => do
    let name ← name.string?
    let v ← plain? v
    let rest ← plainMembers? rest
    return (name, v) :: rest

end

end Json

end ReversePolish
