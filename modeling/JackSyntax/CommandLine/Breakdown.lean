import JackSyntax.Decimal.Digits
import JackSyntax.Markup
import JackSyntax.Store.Basic
import JackSyntax.Text.Utf8

/-!
# Breakdowns

Errors that a run does not report in its own way. They end the program at once, with what was done
before them left as it is.
-/

namespace JackSyntax

/-- What ends the program without a report of its own. -/
inductive Breakdown where
  /-- The configuration file is not UTF-8. -/
  | encoding (e : Utf8.DecodeError)
  /-- An integer in the configuration file has too many digits. -/
  | digits (e : DigitError)
  /-- The limit on tokens in the arguments has no value. -/
  | valuelessLimit
  /-- A path holds a null character. -/
  | nullByte
  /-- Events make no tree. -/
  | markup (e : MarkupError)
deriving DecidableEq, Repr

/-- The wording of the breakdown. -/
def Breakdown.message : Breakdown → String
  | encoding e => e.fault.message ++ " at byte " ++ toString e.offset
  | digits e => e.message
  | valuelessLimit => "'<=' not supported between instances of 'list' and 'int'"
  | nullByte => FileError.nullByte.message
  | markup e => e.message

end JackSyntax
