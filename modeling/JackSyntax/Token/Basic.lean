import JackSyntax.Token.Keyword
import JackSyntax.Token.Symbol
import JackSyntax.Token.Position

/-!
# Tokens

A `Lexeme` is what a token says: a keyword, a symbol, a name or a constant. A `Token` is a lexeme
with the place it was read at.
-/

namespace JackSyntax

/-- The kinds of lexemes. -/
inductive Kind where
  | keyword | symbol | identifier | integerConstant | stringConstant
deriving DecidableEq, Repr

/-- The name of the kind, which is also the element that holds such lexemes in markup. -/
def Kind.name : Kind → String
  | keyword => "keyword"
  | symbol => "symbol"
  | identifier => "identifier"
  | integerConstant => "integerConstant"
  | stringConstant => "stringConstant"

/-- A classified unit of source text, without its place. -/
inductive Lexeme where
  /-- A reserved word. -/
  | keyword (k : Keyword)
  /-- A symbol. -/
  | symbol (s : Symbol)
  /-- A name. -/
  | identifier (name : String)
  /-- A number. -/
  | integer (value : Int)
  /-- A text, without the quotes around it. -/
  | string (value : String)
deriving DecidableEq, Repr

namespace Lexeme

/-- The kind of the lexeme. -/
def kind : Lexeme → Kind
  | keyword _ => .keyword
  | symbol _ => .symbol
  | identifier _ => .identifier
  | integer _ => .integerConstant
  | string _ => .stringConstant

/-- The text of the lexeme: its spelling, its decimal digits or the string itself. -/
def text : Lexeme → String
  | keyword k => k.spelling
  | symbol s => s.spelling
  | identifier name => name
  | integer value => toString value
  | string value => value

/-- The lexeme in the words of a diagnostic. -/
def describe : Lexeme → String
  | string value => "string constant \"" ++ value ++ "\""
  | integer value => "integer constant " ++ toString value
  | l => l.kind.name ++ " '" ++ l.text ++ "'"

/-- Whether the lexeme is one of the keywords. -/
def isKeyword (ks : List Keyword) : Lexeme → Bool
  | keyword k => ks.contains k
  | _ => false

/-- Whether the lexeme is one of the symbols. -/
def isSymbol (ss : List Symbol) : Lexeme → Bool
  | symbol s => ss.contains s
  | _ => false

/-- Whether the lexeme is a name. -/
def isIdentifier : Lexeme → Bool
  | identifier _ => true
  | _ => false

/-- Whether the lexeme is a number or a text. -/
def isLiteral : Lexeme → Bool
  | integer _ | string _ => true
  | _ => false

end Lexeme

/-- A lexeme and its place. -/
structure Token where
  /-- What was read. -/
  lexeme : Lexeme
  /-- Where it was read. -/
  span : Span
deriving DecidableEq, Repr

end JackSyntax
