/-!
# Keywords

The reserved words of the language, their spellings and the groups that the grammar names.
-/

namespace JackSyntax

/-- The reserved words. -/
inductive Keyword where
  | kwClass | kwConstructor | kwFunction | kwMethod | kwField | kwStatic | kwVar | kwInt | kwChar
  | kwBoolean | kwVoid | kwTrue | kwFalse | kwNull | kwThis | kwLet | kwDo | kwIf | kwElse
  | kwWhile | kwReturn
deriving DecidableEq, Repr

namespace Keyword

/-- The source spelling. -/
def spelling : Keyword → String
  | kwClass => "class"
  | kwConstructor => "constructor"
  | kwFunction => "function"
  | kwMethod => "method"
  | kwField => "field"
  | kwStatic => "static"
  | kwVar => "var"
  | kwInt => "int"
  | kwChar => "char"
  | kwBoolean => "boolean"
  | kwVoid => "void"
  | kwTrue => "true"
  | kwFalse => "false"
  | kwNull => "null"
  | kwThis => "this"
  | kwLet => "let"
  | kwDo => "do"
  | kwIf => "if"
  | kwElse => "else"
  | kwWhile => "while"
  | kwReturn => "return"

/-- Every keyword once. -/
def all : List Keyword :=
  [kwClass, kwConstructor, kwFunction, kwMethod, kwField, kwStatic, kwVar, kwInt, kwChar,
   kwBoolean, kwVoid, kwTrue, kwFalse, kwNull, kwThis, kwLet, kwDo, kwIf, kwElse, kwWhile,
   kwReturn]

theorem mem_all (k : Keyword) : k ∈ all := by
  cases k <;> decide

/-- The keyword spelled exactly so. -/
def ofSpelling? (text : String) : Option Keyword :=
  all.find? fun k ↦ k.spelling == text

/-- The kinds of class variables. -/
def classVarKinds : List Keyword :=
  [kwStatic, kwField]

/-- The kinds of subroutines. -/
def subroutineKinds : List Keyword :=
  [kwConstructor, kwFunction, kwMethod]

/-- The types that are built in. -/
def primitiveTypes : List Keyword :=
  [kwInt, kwChar, kwBoolean]

/-- The keywords that stand for values. -/
def constants : List Keyword :=
  [kwTrue, kwFalse, kwNull, kwThis]

/-- The keywords that start a statement. -/
def statementStarts : List Keyword :=
  [kwLet, kwIf, kwWhile, kwDo, kwReturn]

end Keyword

end JackSyntax
