import JackSyntax.Decimal.Digits
import JackSyntax.Lexer.Tokenizer

/-!
# Integer constants by conversion

`scanInteger` compares numbers of any length. Where integers are converted from decimal text and
back only up to `maxDigits` digits, reading a constant may fail for a reason that is no error in the
text: the maximum is written to see how long it is, and the digits that count are read if they are
not more than its characters (`convertInteger`). `Tokenizer.nextConverted` reads the next token with
constants converted in this way. With the usual maximum it is `Tokenizer.next`, which all other
readings of a text go by.
-/

namespace JackSyntax

/-- Why no token is read. -/
inductive ReadError where
  /-- A lexical error. -/
  | lexical (e : LexError)
  /-- An integer with too many digits to be converted. -/
  | digits (e : DigitError)
deriving DecidableEq, Repr

/-- The integer constant at the start of the text, by conversions. A constant is refused unread if
it has more digits than the maximum has characters, of which one may be its sign. -/
def convertInteger (maximum : Int) (text : List Char) :
    Except DigitError (Except LexError.Cause Scan) := do
  let digits := text.takeWhile Char.isDigit
  let significant := significantDigits digits
  let refusal := .error (.outOfRange (String.ofList digits) maximum)
  let written ← integerText maximum
  if significant.length > written.length then return refusal
  let value ← naturalOfDigits (significant.map fun c ↦ c.toNat - '0'.toNat)
  if value > maximum then return refusal
  return .ok ⟨.integer value, digits, text.dropWhile Char.isDigit⟩

namespace Tokenizer

/-- Reads the integer constant at the cursor, without passing over trivia and without counting
it. -/
def integer (t : Tokenizer) : Except ReadError Token × Tokenizer :=
  match convertInteger t.limits.maxInteger t.rest with
  | .error e => (.error (.digits e), t)
  | .ok (.error cause) => (.error (.lexical ⟨cause, t.cursor.position⟩), t)
  | .ok (.ok scan) => (.ok (t.tokenOf scan), t.accept scan)

/-- Reads the next token as `next` does, but with the integer constants converted. -/
def nextConverted (t : Tokenizer) : Except ReadError (Option Token) × Tokenizer :=
  if !t.isSpent && t.skipTrivia.rest.head?.any Char.isDigit then
    match t.skipTrivia.integer with
    | (.error e, t') => (.error e, t')
    | (.ok token, t') => (.ok (some token), { t' with emitted := t.emitted + 1 })
  else (t.next.1.mapError .lexical, t.next.2)

end Tokenizer

end JackSyntax
