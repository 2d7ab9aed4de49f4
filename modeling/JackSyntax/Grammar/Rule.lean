import JackSyntax.Grammar.Terminal

/-!
# The grammar as tables

What a class consists of, in the form that a predictive parser reads. An `Item` is something that
the text still has to satisfy: a terminal, a rule, a choice. `Rule.body` lists the items of a rule,
and `Choice.select` lists those of a choice once the token that decides it is known. Only a choice
looks at tokens, and only a terminal consumes one.
-/

namespace JackSyntax

/-- The rules of the grammar. -/
inductive Rule where
  | classDec | classVarDec | subroutineDec | parameterList | subroutineBody | varDec | statements
  | letStatement | ifStatement | whileStatement | doStatement | returnStatement | expression | term
  | subroutineCall | expressionList
deriving DecidableEq, Repr

namespace Rule

/-- The name of the rule, in trees and in diagnostics. -/
def name : Rule → String
  | classDec => "class"
  | classVarDec => "classVarDec"
  | subroutineDec => "subroutineDec"
  | parameterList => "parameterList"
  | subroutineBody => "subroutineBody"
  | varDec => "varDec"
  | statements => "statements"
  | letStatement => "letStatement"
  | ifStatement => "ifStatement"
  | whileStatement => "whileStatement"
  | doStatement => "doStatement"
  | returnStatement => "returnStatement"
  | expression => "expression"
  | term => "term"
  | subroutineCall => "subroutineCall"
  | expressionList => "expressionList"

/-- Whether the rule makes an element of the tree. The parts of a call belong to the element around
it. -/
def tagged : Rule → Bool
  | subroutineCall => false
  | _ => true

/-- The statement that a keyword starts. -/
def ofStatementStart? : Keyword → Option Rule
  | .kwLet => some letStatement
  | .kwIf => some ifStatement
  | .kwWhile => some whileStatement
  | .kwDo => some doStatement
  | .kwReturn => some returnStatement
  | _ => none

end Rule

/-- What lists without separators repeat. -/
inductive Repeatable where
  | classVarDec | subroutineDec | varDec | statement
deriving DecidableEq, Repr

/-- The keywords that start one more of the list. -/
def Repeatable.starts : Repeatable → List Keyword
  | classVarDec => Keyword.classVarKinds
  | subroutineDec => Keyword.subroutineKinds
  | varDec => [.kwVar]
  | statement => Keyword.statementStarts

/-- What depends on a token ahead. -/
inductive Choice where
  /-- More of a list without separators, or its end. -/
  | many (r : Repeatable)
  /-- A comma and more variable names, or nothing. -/
  | moreNames
  /-- Parameters, or nothing before the closing parenthesis. -/
  | parameters
  /-- A comma and more parameters, or nothing. -/
  | moreParameters
  /-- One of the statements. -/
  | statement
  /-- An index in brackets, or nothing. -/
  | subscript
  /-- The other branch of a conditional, or nothing. -/
  | elseBranch
  /-- The value that a subroutine returns, or nothing before the semicolon. -/
  | result
  /-- An operator and more terms, or nothing. -/
  | moreTerms
  /-- One of the forms of a term. -/
  | term
  /-- A term that starts with a name, which the token after the name decides. -/
  | nameTerm
  /-- The name after a dot, or nothing. -/
  | member
  /-- Expressions, or nothing before the closing parenthesis. -/
  | arguments
  /-- A comma and more expressions, or nothing. -/
  | moreArguments
deriving DecidableEq, Repr

/-- How many tokens stand before the one that decides the choice. -/
def Choice.depth : Choice → Nat
  | nameTerm => 1
  | _ => 0

/-- What the text still has to satisfy. -/
inductive Item where
  /-- A token of a sort, which is consumed. -/
  | terminal (t : Terminal)
  /-- A rule. -/
  | rule (r : Rule)
  /-- The end of a rule begun. -/
  | close (r : Rule)
  /-- Something that a token ahead decides. -/
  | choice (c : Choice)
  /-- The end of the text. -/
  | finish
deriving DecidableEq, Repr

namespace Item

/-- One of the keywords. -/
abbrev keyword (ks : List Keyword) : Item := .terminal (.keyword ks)

/-- A symbol. -/
abbrev symbol (s : Symbol) : Item := .terminal (.symbol s)

/-- A name. -/
abbrev identifier (role : Role) : Item := .terminal (.identifier role)

/-- The type of a variable. -/
abbrev type : Item := .terminal .type

/-- The token that was looked at. -/
abbrev shift : Item := .terminal .any

end Item

open Item in
/-- One more of a list without separators. -/
def Repeatable.item : Repeatable → Item
  | classVarDec => .rule .classVarDec
  | subroutineDec => .rule .subroutineDec
  | varDec => .rule .varDec
  | statement => .choice .statement

open Item in
/-- An expression in parentheses. -/
def Item.parenthesized : List Item :=
  [symbol .leftParen, .rule .expression, symbol .rightParen]

open Item in
/-- Statements in braces. -/
def Item.block : List Item :=
  [symbol .leftBrace, .rule .statements, symbol .rightBrace]

open Item in
/-- The items of a rule. -/
def Rule.body : Rule → List Item
  | classDec =>
    [keyword [.kwClass], identifier .className, symbol .leftBrace, .choice (.many .classVarDec),
      .choice (.many .subroutineDec), symbol .rightBrace]
  | classVarDec =>
    [keyword Keyword.classVarKinds, type, identifier .variableName, .choice .moreNames,
      symbol .semicolon]
  | subroutineDec =>
    [keyword Keyword.subroutineKinds, .terminal .resultType, identifier .subroutineName,
      symbol .leftParen, .rule .parameterList, symbol .rightParen, .rule .subroutineBody]
  | parameterList => [.choice .parameters]
  | subroutineBody =>
    [symbol .leftBrace, .choice (.many .varDec), .rule .statements, symbol .rightBrace]
  | varDec =>
    [keyword [.kwVar], type, identifier .variableName, .choice .moreNames, symbol .semicolon]
  | statements => [.choice (.many .statement)]
  | letStatement =>
    [keyword [.kwLet], identifier .variableName, .choice .subscript, symbol .equals,
      .rule .expression, symbol .semicolon]
  | ifStatement => keyword [.kwIf] :: (parenthesized ++ block ++ [.choice .elseBranch])
  | whileStatement => keyword [.kwWhile] :: (parenthesized ++ block)
  | doStatement => [keyword [.kwDo], .rule .subroutineCall, symbol .semicolon]
  | returnStatement => [keyword [.kwReturn], .choice .result, symbol .semicolon]
  | expression => [.rule .term, .choice .moreTerms]
  | term => [.choice .term]
  | subroutineCall =>
    [identifier .callee, .choice .member, symbol .leftParen, .rule .expressionList,
      symbol .rightParen]
  | expressionList => [.choice .arguments]

open Item in
/-- The items of a term that starts with the lexeme. -/
def termItems (l : Lexeme) : Except Expectation (List Item) :=
  if l.isLiteral || l.isKeyword Keyword.constants then .ok [shift]
  else if l.isSymbol [.leftParen] then .ok parenthesized
  else if l.isSymbol Symbol.unaryOps then .ok [shift, .rule .term]
  else if l.isIdentifier then .ok [.choice .nameTerm]
  else .error .term

/-- The statement that starts with the lexeme. -/
def statementItems : Lexeme → Except Expectation (List Item)
  | .keyword k =>
    match Rule.ofStatementStart? k with
    | some r => .ok [.rule r]
    | none => .error .statement
  | _ => .error .statement

open Item in
/-- The items of a choice once the token that decides it is known, `none` standing for the end of
the text. Optional parts are left out unless that token starts them, and only a term and a statement
can be refused. -/
def Choice.select (ahead : Option Lexeme) : Choice → Except Expectation (List Item)
  | many r =>
    .ok (if ahead.any (·.isKeyword r.starts) then [r.item, .choice (many r)] else [])
  | moreNames =>
    .ok (if ahead.any (·.isSymbol [.comma]) then
      [symbol .comma, identifier .variableName, .choice moreNames] else [])
  | parameters =>
    .ok (if ahead.any (·.isSymbol [.rightParen]) then [] else
      [type, identifier .parameterName, .choice moreParameters])
  | moreParameters =>
    .ok (if ahead.any (·.isSymbol [.comma]) then
      [symbol .comma, type, identifier .parameterName, .choice moreParameters] else [])
  | statement =>
    match ahead with
    | some l => statementItems l
    | none => .error .statement
  | subscript =>
    .ok (if ahead.any (·.isSymbol [.leftBracket]) then
      [symbol .leftBracket, .rule .expression, symbol .rightBracket] else [])
  | elseBranch =>
    .ok (if ahead.any (·.isKeyword [.kwElse]) then keyword [.kwElse] :: block else [])
  | result =>
    .ok (if ahead.any (·.isSymbol [.semicolon]) then [] else [.rule .expression])
  | moreTerms =>
    .ok (if ahead.any (·.isSymbol Symbol.binaryOps) then
      [shift, .rule .term, .choice moreTerms] else [])
  | term =>
    match ahead with
    | some l => termItems l
    | none => .error .term
  -- The token ahead is the one after the name.
  | nameTerm =>
    .ok (if ahead.any (·.isSymbol [.leftParen, .dot]) then [.rule .subroutineCall] else
      [shift, .choice subscript])
  | member =>
    .ok (if ahead.any (·.isSymbol [.dot]) then
      [symbol .dot, identifier .subroutineName] else [])
  | arguments =>
    .ok (if ahead.any (·.isSymbol [.rightParen]) then [] else
      [.rule .expression, .choice moreArguments])
  | moreArguments =>
    .ok (if ahead.any (·.isSymbol [.comma]) then
      [symbol .comma, .rule .expression, .choice moreArguments] else [])

end JackSyntax
