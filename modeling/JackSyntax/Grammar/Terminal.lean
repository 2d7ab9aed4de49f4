import JackSyntax.Token.Basic

/-!
# Terminals

The sorts of tokens that the grammar asks for, each with the test that admits a lexeme and the words
that name it in a diagnostic.
-/

namespace JackSyntax

/-- Wordings in a row, the last two joined by "or". -/
def alternatives : List String → String
  | [] => ""
  | [text] => text
  | [first, last] => first ++ " or " ++ last
  | text :: rest => text ++ ", " ++ alternatives rest

/-- A spelling as diagnostics cite it. -/
def cited (spelling : String) : String :=
  "'" ++ spelling ++ "'"

/-- What a name names. -/
inductive Role where
  | className | variableName | subroutineName | parameterName | callee
deriving DecidableEq, Repr

/-- The role in words. -/
def Role.text : Role → String
  | className => "class name"
  | variableName => "variable name"
  | subroutineName => "subroutine name"
  | parameterName => "parameter name"
  | callee => "subroutine, class or variable name"

/-- A sort of token that the grammar asks for. -/
inductive Terminal where
  /-- One of the keywords. -/
  | keyword (ks : List Keyword)
  /-- The symbol. -/
  | symbol (s : Symbol)
  /-- A name. -/
  | identifier (role : Role)
  /-- The type of a variable: a primitive type or a class name. -/
  | type
  /-- The type of a result: a type or `void`. -/
  | resultType
  /-- Any token at all. -/
  | any
deriving DecidableEq, Repr

namespace Terminal

/-- Whether the lexeme is of the sort asked for. -/
def admits : Terminal → Lexeme → Bool
  | keyword ks, l => l.isKeyword ks
  | symbol s, l => l.isSymbol [s]
  | identifier _, l => l.isIdentifier
  | type, l => l.isKeyword Keyword.primitiveTypes || l.isIdentifier
  | resultType, l => l.isKeyword (.kwVoid :: Keyword.primitiveTypes) || l.isIdentifier
  | any, _ => true

/-- The sort in words. -/
def text : Terminal → String
  | keyword ks => alternatives (ks.map fun k ↦ cited k.spelling)
  | symbol s => cited s.spelling
  | identifier role => "identifier (" ++ role.text ++ ")"
  | type => "type"
  | resultType => "'void' or type"
  | any => "token"

end Terminal

/-- What a diagnostic says was expected. -/
inductive Expectation where
  /-- A token of a sort. -/
  | terminal (t : Terminal)
  /-- A term. -/
  | term
  /-- A statement. -/
  | statement
  /-- The end of the text. -/
  | endOfInput
deriving DecidableEq, Repr

/-- The expectation in words. -/
def Expectation.text : Expectation → String
  | terminal t => t.text
  | term => "term"
  | statement =>
    "statement (" ++ alternatives (Keyword.statementStarts.map fun k ↦ cited k.spelling) ++ ")"
  | endOfInput => "end of input"

end JackSyntax
