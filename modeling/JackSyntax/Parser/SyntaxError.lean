import JackSyntax.Grammar.Rule
import JackSyntax.Lexer.LexError

/-!
# Syntax errors

What the grammar asked for, within which rule, and what the text held instead.
-/

namespace JackSyntax

/-- What stood where something else was expected. -/
inductive Found where
  /-- A token. -/
  | token (t : Token)
  /-- The end of the text, at this place. -/
  | endOfInput (position : Position)
deriving DecidableEq, Repr

namespace Found

/-- What was found in words. -/
def text : Found → String
  | token t => t.lexeme.describe
  | endOfInput _ => "end of input"

/-- Where it was found. The end of a text has no extent. -/
def span : Found → Span
  | token t => t.span
  | endOfInput position => .empty position

end Found

/-- A text that does not follow the grammar. -/
structure SyntaxError where
  /-- The innermost rule begun and not ended. -/
  rule : Option Rule
  /-- What was expected. -/
  expected : Expectation
  /-- What was found. -/
  found : Found
deriving DecidableEq, Repr

/-- The message of the error. -/
def SyntaxError.message (e : SyntaxError) : String :=
  let within := match e.rule with
    | some r => " in " ++ r.name
    | none => ""
  match e.found with
  | .endOfInput _ => "unexpected end of input, expected " ++ e.expected.text ++ within
  | .token _ =>
    let complaint := match e.expected with
      | .endOfInput => "unexpected token after class declaration"
      | expected => "expected " ++ expected.text
    complaint ++ within ++ ", found " ++ e.found.text

/-- Why a parse ended early. -/
inductive ParseFailure where
  /-- A token could not be read. -/
  | lexical (e : LexError)
  /-- The tokens do not follow the grammar. -/
  | syntactic (e : SyntaxError)
deriving DecidableEq, Repr

end JackSyntax
