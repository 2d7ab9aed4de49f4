import JackSyntax.Text.Quoted
import JackSyntax.Token.Position

/-!
# Lexical errors

Why a text could not be read as a token, and where.
-/

namespace JackSyntax

/-- The reasons for which no token can be read. -/
inductive LexError.Cause where
  /-- A character that starts no token. -/
  | unrecognized (c : Char)
  /-- A number above the largest that the language has. -/
  | outOfRange (digits : String) (maximum : Int)
  /-- A string without its closing quote. -/
  | unterminatedString
  /-- A digit where a word should start. -/
  | digitStart
  /-- Another character, or the end of the text, where a word should start. -/
  | notWord (found : Option Char)
deriving DecidableEq, Repr

/-- The wording of a cause. -/
def LexError.Cause.message : LexError.Cause → String
  | unrecognized c => "unrecognized character " ++ quoted (String.singleton c)
  | outOfRange digits maximum =>
    "integer constant " ++ digits ++ " is out of range (maximum " ++ toString maximum ++ ")"
  | unterminatedString => "unterminated string literal"
  | digitStart => "identifiers cannot start with a digit"
  | notWord found =>
    "expected identifier or keyword, found " ++ quoted (String.ofList found.toList)

/-- A lexical error. -/
structure LexError where
  /-- What is wrong. -/
  cause : LexError.Cause
  /-- Where the faulty lexeme begins. -/
  position : Position
deriving DecidableEq, Repr

/-- The error covers the one column at its place. -/
def LexError.span (e : LexError) : Span :=
  .singleton e.position

end JackSyntax
