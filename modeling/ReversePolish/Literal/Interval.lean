import ReversePolish.Interval

set_option autoImplicit false

/-! # Interval literals

Two integers with one comma between them. The checks are made in a fixed order, and a literal
fails with the first that it does not pass. The conversion of a bound refuses more than 4300
digits, which is a failure of another kind: it is none of the ways in which a literal can be
malformed. -/

namespace ReversePolish

/-- What is wrong with the format of an interval literal. -/
inductive IntervalFault where
  | missingComma
  | moreThanOneComma
  | emptyBound
  | boundsNotIntegers
  | boundOutOfRange
deriving DecidableEq, Repr

/-- The wording of a fault. -/
def IntervalFault.reason : IntervalFault → String
  | missingComma => "missing comma"
  | moreThanOneComma => "more than one comma"
  | emptyBound => "empty bound"
  | boundsNotIntegers => "bounds must be integers"
  | boundOutOfRange => "bound out of 32-bit range"

/-- Why a token is no interval. -/
inductive IntervalLiteralError where
  | format (fault : IntervalFault)
  /-- The bounds are in range but in the wrong order. -/
  | startAfterEnd
  /-- A bound has too many digits to be converted. -/
  | tooManyDigits (digits : Nat)
deriving DecidableEq, Repr

namespace IntervalLiteral

/-- The integer of a bound whose form has been checked. -/
def convert (bound : List Char) : Except IntervalLiteralError Int :=
  let digits := (Decimal.splitSign bound).2.length
  if Decimal.maxDigits < digits then .error (.tooManyDigits digits)
  else .ok (Decimal.intValue bound)

/-- Whether an integer fits into 32 bits. -/
def inRange (i : Int) : Bool :=
  minBound ≤ i && i ≤ maxBound

/-- The interval of two integers. -/
def ofIntegers (s e : Int) : Except IntervalLiteralError Interval :=
  if inRange s && inRange e then
    match Interval.ofBounds? s e with
    | some i => .ok i
    | none => .error .startAfterEnd
  else .error (.format .boundOutOfRange)

/-- The interval of two bounds. -/
def ofTexts (s e : List Char) : Except IntervalLiteralError Interval :=
  if s.isEmpty || e.isEmpty then .error (.format .emptyBound)
  else if !Decimal.isInteger s || !Decimal.isInteger e then .error (.format .boundsNotIntegers)
  else do
    let a ← convert s
    let b ← convert e
    ofIntegers a b

/-- The interval of a literal. -/
def read (cs : List Char) : Except IntervalLiteralError Interval :=
  match cs.dropWhile (· != ',') with
  | [] => .error (.format .missingComma)
  | _ :: rest =>
    if rest.contains ',' then .error (.format .moreThanOneComma)
    else ofTexts (cs.takeWhile (· != ',')) rest

end IntervalLiteral

end ReversePolish
