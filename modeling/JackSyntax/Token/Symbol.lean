/-!
# Symbols

The one-character symbols of the language and the operators among them.
-/

namespace JackSyntax

/-- The symbols. -/
inductive Symbol where
  | leftBrace | rightBrace | leftParen | rightParen | leftBracket | rightBracket | dot | comma
  | semicolon | plus | minus | star | slash | ampersand | pipe | less | greater | equals | tilde
deriving DecidableEq, Repr

namespace Symbol

/-- The character that is the symbol. -/
def char : Symbol → Char
  | leftBrace => '{'
  | rightBrace => '}'
  | leftParen => '('
  | rightParen => ')'
  | leftBracket => '['
  | rightBracket => ']'
  | dot => '.'
  | comma => ','
  | semicolon => ';'
  | plus => '+'
  | minus => '-'
  | star => '*'
  | slash => '/'
  | ampersand => '&'
  | pipe => '|'
  | less => '<'
  | greater => '>'
  | equals => '='
  | tilde => '~'

/-- The source spelling. -/
def spelling (s : Symbol) : String :=
  String.singleton s.char

/-- Every symbol once. -/
def all : List Symbol :=
  [leftBrace, rightBrace, leftParen, rightParen, leftBracket, rightBracket, dot, comma,
   semicolon, plus, minus, star, slash, ampersand, pipe, less, greater, equals, tilde]

theorem mem_all (s : Symbol) : s ∈ all := by
  cases s <;> decide

/-- The symbol that the character is. -/
def ofChar? (c : Char) : Option Symbol :=
  all.find? fun s ↦ s.char == c

/-- The symbol spelled exactly so. -/
def ofSpelling? (text : String) : Option Symbol :=
  match text.toList with
  | [c] => ofChar? c
  | _ => none

/-- The operators between two terms. -/
def binaryOps : List Symbol :=
  [plus, minus, star, slash, ampersand, pipe, less, greater, equals]

/-- The operators before a term. -/
def unaryOps : List Symbol :=
  [minus, tilde]

end Symbol

end JackSyntax
