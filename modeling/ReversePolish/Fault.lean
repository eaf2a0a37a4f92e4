import ReversePolish.Decimal
import ReversePolish.Operator

set_option autoImplicit false

/-! # Faults

What can be wrong with a field of structured input. A fault has a code, a wording and a place:
the path of names that leads to the field, which may end in an offset. -/

namespace ReversePolish

/-- What is wrong with a field. -/
inductive Fault where
  /-- The field is not there. -/
  | missing
  /-- The value is no integer and nothing that stands for one. -/
  | notAnInteger
  /-- The text does not denote an integer. -/
  | integerText
  /-- The text denotes an integer too long to be converted, or the number is too large. -/
  | integerSize
  /-- The number has a fraction. -/
  | fractional
  /-- The number is infinite or NaN. -/
  | notFinite
  | below (bound : Int)
  | above (bound : Int)
  /-- The bounds of an interval are in the wrong order. -/
  | order (lower upper : Int)
  /-- The value is none of the six operators. -/
  | notAnOperator
  /-- The value is no node of that kind. -/
  | notANode (kind : String)
  /-- The value is no domain. -/
  | notADomain
  | notAString
  /-- The document is neither an object nor something with fields. -/
  | notAnObject
  /-- The document is malformed. -/
  | malformed
  /-- The field cannot be changed. -/
  | frozen
deriving DecidableEq, Repr

namespace Fault

/-- The code of a fault. -/
def code : Fault → String
  | missing => "missing"
  | notAnInteger => "int_type"
  | integerText => "int_parsing"
  | integerSize => "int_parsing_size"
  | fractional => "int_from_float"
  | notFinite => "finite_number"
  | below _ => "greater_than_equal"
  | above _ => "less_than_equal"
  | order _ _ => "invalid_interval"
  | notAnOperator => "literal_error"
  | notANode _ => "model_type"
  | notADomain => "enum"
  | notAString => "string_type"
  | notAnObject => "model_attributes_type"
  | malformed => "json_invalid"
  | frozen => "frozen_instance"

/-- The wording of a fault. -/
def message : Fault → String
  | missing => "Field required"
  | notAnInteger => "Input should be a valid integer"
  | integerText => "Input should be a valid integer, unable to parse string as an integer"
  | integerSize => "Unable to parse input string as an integer, exceeded maximum size"
  | fractional => "Input should be a valid integer, got a number with a fractional part"
  | notFinite => "Input should be a finite number"
  | below bound => "Input should be greater than or equal to " ++ Decimal.intText bound
  | above bound => "Input should be less than or equal to " ++ Decimal.intText bound
  | order lower upper =>
    "Invalid interval: start " ++ Decimal.intText lower ++ " is greater than end " ++
      Decimal.intText upper
  | notAnOperator => "Input should be '+', '-', '*', '/', 'U' or 'I'"
  | notANode kind => "Input should be a valid dictionary or instance of " ++ kind
  | notADomain => "Input should be 'arithmetic' or 'interval'"
  | notAString => "Input should be a valid string"
  | notAnObject => "Input should be a valid dictionary or object to extract fields from"
  | malformed => "JSON decode error"
  | frozen => "Instance is frozen"

end Fault

/-- One part of the place of a fault. -/
inductive PlacePart where
  | name (s : String)
  | offset (n : Nat)
deriving DecidableEq, Repr

/-- A fault at its place. -/
structure FaultReport where
  fault : Fault
  place : List PlacePart
deriving DecidableEq, Repr

/-- A fault of the field of that name. -/
def FaultReport.ofField (name : String) (fault : Fault) : FaultReport :=
  ⟨fault, [.name name]⟩

end ReversePolish
