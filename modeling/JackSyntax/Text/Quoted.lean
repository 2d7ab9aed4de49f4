import JackSyntax.Unicode.Printable

/-!
# Quoted text

`quoted` writes any text on one line of printable characters: between two marks, with every
character that would break the line, end the quotation or not show written as an escape.
-/

namespace JackSyntax

/-- The apostrophe, which marks quotations unless the text itself holds it. -/
def apostrophe : Char := '\x27'

/-- The mark around a quotation: a double quote if the text holds apostrophes and no double quote,
and otherwise the apostrophe. -/
def quotationMark (text : List Char) : Char :=
  if text.contains apostrophe && !text.contains '"' then '"' else apostrophe

/-- The last `width` hexadecimal digits of a number, in lower case. -/
def hexDigits : (width : Nat) → Nat → List Char
  | 0, _ => []
  | width + 1, n => hexDigits width (n / 16) ++ [Nat.digitChar (n % 16)]

/-- A code point as an escape of two, four or eight hexadecimal digits, whichever holds it. -/
def hexEscape (n : Nat) : List Char :=
  if n < 0x100 then '\\' :: 'x' :: hexDigits 2 n
  else if n < 0x10000 then '\\' :: 'u' :: hexDigits 4 n
  else '\\' :: 'U' :: hexDigits 8 n

/-- The characters that stand for `c` between two marks. -/
def escaped (mark c : Char) : List Char :=
  if c = mark || c = '\\' then ['\\', c]
  else if c = '\n' then ['\\', 'n']
  else if c = '\r' then ['\\', 'r']
  else if c = '\t' then ['\\', 't']
  else if isPrintable c then [c]
  else hexEscape c.toNat

/-- The quotation of a list of characters. -/
def quotedChars (text : List Char) : List Char :=
  let mark := quotationMark text
  mark :: text.flatMap (escaped mark) ++ [mark]

/-- The text between two marks, with escapes for what could not stand there. -/
def quoted (text : String) : String :=
  String.ofList (quotedChars text.toList)

end JackSyntax
