import ReversePolish.Document

set_option autoImplicit false

/-! # The vocabulary

What whoever exchanges expressions with this library can rely on: the operators of each domain,
the kinds of error, the range of bounds and the marked interval, under one version. -/

namespace ReversePolish

/-- The fixed terms of exchanges. -/
structure Vocabulary where
  version : String
  minBound : Int
  maxBound : Int
  operators : List (Domain × List String)
  syntaxErrorKinds : List String
  evaluationErrorKinds : List String
  emptyInterval : Interval
deriving DecidableEq, Repr

/-- The vocabulary of this library. -/
def vocabulary : Vocabulary where
  version := "1.0.0"
  minBound := ReversePolish.minBound
  maxBound := ReversePolish.maxBound
  operators := Domain.all.map fun d => (d, Operator.symbolsOf d)
  syntaxErrorKinds := SyntaxError.Kind.all.map (·.name)
  evaluationErrorKinds := [divisionByZeroKind]
  emptyInterval := .empty

namespace Vocabulary

/-- An array of texts. -/
def textsJson (texts : List String) : Json :=
  .array (texts.map .string)

/-- The vocabulary as an object. -/
def toJson (v : Vocabulary) : Json :=
  .object
    [("version", .string v.version), ("min_int", .integer v.minBound),
      ("max_int", .integer v.maxBound),
      ("operators", .object (v.operators.map fun (d, symbols) => (d.name, textsJson symbols))),
      ("parse_error_kinds", textsJson v.syntaxErrorKinds),
      ("eval_error_kinds", textsJson v.evaluationErrorKinds),
      ("empty_interval", v.emptyInterval.toJson)]

end Vocabulary

end ReversePolish
