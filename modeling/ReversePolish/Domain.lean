set_option autoImplicit false

/-! # Domains

An expression is over one of two domains: floating-point numbers, or integer intervals. -/

namespace ReversePolish

/-- What the operands of an expression are. -/
inductive Domain where
  | arithmetic
  | interval
deriving DecidableEq, Repr

namespace Domain

/-- Both domains. -/
def all : List Domain :=
  [arithmetic, interval]

/-- The name of a domain. -/
def name : Domain → String
  | arithmetic => "arithmetic"
  | interval => "interval"

/-- The domain of that exact name. -/
def ofName? (s : String) : Option Domain :=
  all.find? (·.name == s)

theorem ofName?_name (d : Domain) : ofName? d.name = some d := by
  cases d <;> rfl

end Domain

end ReversePolish
