import ReversePolish.Reading
import ReversePolish.Text.Ragged

set_option autoImplicit false

/-! # Reading ragged texts

A ragged text is never an expression. Half a pair is not blank and stands in no operator and in no
literal, so reading stops at the token with the first half, unless it stops at a token in front of
it. The token is refused by the first check that a token with a foreign character does not
pass. -/

namespace ReversePolish

/-- Why a ragged text is no expression. -/
inductive RaggedFailure where
  /-- Reading stops in front of the token with the first half. -/
  | earlier (f : ReadingFailure)
  /-- The token with the first half is no literal. -/
  | badLiteral (cause : LiteralError) (token : RaggedText) (position : Nat)
deriving DecidableEq, Repr

namespace RaggedText

/-! ## Tokens -/

/-- The tokens in front of the one with the first half. -/
def tokensBefore (t : RaggedText) : List String :=
  (tokens (trimEnd (!isBlank ·) t.front)).map String.ofList

/-- The token with the first half. -/
def token (t : RaggedText) : RaggedText where
  front := (t.front.reverse.takeWhile (!isBlank ·)).reverse
  half := t.half
  rest := t.rest.takeWhile (!·.separates)

/-! ## Literals -/

/-- What is wrong with the format of an interval that is written with half a pair. -/
def intervalFault (t : RaggedText) : IntervalFault :=
  match t.codePoints.dropWhile (· != .char ',') with
  | [] => .missingComma
  | _ :: rest =>
    if rest.contains (.char ',') then .moreThanOneComma
    else if (t.codePoints.takeWhile (· != .char ',')).isEmpty || rest.isEmpty then .emptyBound
    else .boundsNotIntegers

/-- Why a token with half a pair in it is no literal of the domain. -/
def literalError (t : RaggedText) : Domain → LiteralError
  | .arithmetic => .notANumber
  | .interval => .interval t.intervalFault

/-! ## Texts -/

/-- Why the text is no expression. -/
def failure (d : Domain) (t : RaggedText) : RaggedFailure :=
  match readTokens d 0 t.tokensBefore [] with
  | .error f => .earlier f
  | .ok _ => .badLiteral (t.token.literalError d) t.token t.tokensBefore.length

end RaggedText

end ReversePolish
