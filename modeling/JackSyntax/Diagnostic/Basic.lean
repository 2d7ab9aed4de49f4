import JackSyntax.Lexer.Tokenizer
import JackSyntax.Parser.Session

/-!
# Diagnostics

A `Source` is a text under the name that diagnostics cite. A `Diagnostic` is a complaint about a
span of a source, with what is known of its origin.
-/

namespace JackSyntax

/-- A text and the name that diagnostics cite. -/
structure Source where
  /-- The name. -/
  name : String := "input.jack"
  /-- The text. -/
  text : String
deriving DecidableEq, Repr

/-- Where a complaint comes from. -/
inductive Diagnostic.Origin where
  /-- Reading a token. -/
  | lexical
  /-- The grammar: the rule in force, what it asked for and what stood there, as far as known. -/
  | syntactic (rule expected found : Option String)
deriving DecidableEq, Repr

/-- A complaint about a source. -/
structure Diagnostic where
  /-- What is wrong. -/
  message : String
  /-- The part of the text that is at fault. -/
  span : Span
  /-- The text and its name. -/
  source : Source
  /-- Where the complaint comes from. -/
  origin : Diagnostic.Origin
deriving DecidableEq, Repr

/-- A lexical error as a complaint about the source it was met in. -/
def LexError.diagnostic (e : LexError) (source : Source) : Diagnostic where
  message := e.cause.message
  span := e.span
  source
  origin := .lexical

/-- A syntax error as a complaint about the source it was met in. -/
def SyntaxError.diagnostic (e : SyntaxError) (source : Source) : Diagnostic where
  message := e.message
  span := e.found.span
  source
  origin := .syntactic (e.rule.map Rule.name) e.expected.text e.found.text

/-- A failed parse as a complaint about the source. -/
def ParseFailure.diagnostic (failure : ParseFailure) (source : Source) : Diagnostic :=
  match failure with
  | .lexical e => e.diagnostic source
  | .syntactic e => e.diagnostic source

end JackSyntax
