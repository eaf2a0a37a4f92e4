import ReversePolish.Binary64.Round

set_option autoImplicit false

/-! # Arithmetic on binary64

The four operations of IEEE 754: the exact result, rounded once. An exact sum of zero is
negative only when both terms are. A product or quotient is negative when exactly one operand
is. -/

namespace ReversePolish

attribute [local instance] corePow

namespace Binary64

/-- The number of the given value in quanta; `zeroNegative` is the sign of a zero. -/
def ofSignedQuanta (zeroNegative : Bool) (s : Int) : Binary64 :=
  if s = 0 then zero zeroNegative else ofQuanta (s < 0) s.natAbs 1

/-- The number with the other sign. -/
def negate : Binary64 → Binary64
  | nan => nan
  | infinity s => infinity (!s)
  | finite x => finite x.negate

/-- The sum. Infinities of opposite sign have none. -/
def add : Binary64 → Binary64 → Binary64
  | nan, _ => nan
  | _, nan => nan
  | infinity s, infinity t => if s == t then infinity s else nan
  | infinity s, finite _ => infinity s
  | finite _, infinity t => infinity t
  | finite x, finite y =>
    ofSignedQuanta (x.negative && y.negative) (x.signedQuanta + y.signedQuanta)

/-- The difference, which is the sum with the opposite number. -/
def sub (x y : Binary64) : Binary64 :=
  add x (negate y)

/-- The product. Infinity times zero has none. -/
def mul : Binary64 → Binary64 → Binary64
  | nan, _ => nan
  | _, nan => nan
  | infinity s, infinity t => infinity (s != t)
  | infinity s, finite y => if y.isZero then nan else infinity (s != y.negative)
  | finite x, infinity t => if x.isZero then nan else infinity (x.negative != t)
  | finite x, finite y =>
    ofQuanta (x.negative != y.negative) (x.quanta * y.quanta) (2 ^ (1074 : Nat))

/-- The quotient. Zero by zero and infinity by infinity have none. -/
def div : Binary64 → Binary64 → Binary64
  | nan, _ => nan
  | _, nan => nan
  | infinity _, infinity _ => nan
  | infinity s, finite y => infinity (s != y.negative)
  | finite x, infinity t => zero (x.negative != t)
  | finite x, finite y =>
    if y.isZero then
      if x.isZero then nan else infinity (x.negative != y.negative)
    else ofQuanta (x.negative != y.negative) (x.quanta * 2 ^ (1074 : Nat)) y.quanta

instance : Add Binary64 := ⟨add⟩
instance : Sub Binary64 := ⟨sub⟩
instance : Mul Binary64 := ⟨mul⟩
instance : Div Binary64 := ⟨div⟩

end Binary64

end ReversePolish
