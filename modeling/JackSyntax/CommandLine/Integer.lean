import JackSyntax.Decimal.Digits
import JackSyntax.Unicode.Blank
import JackSyntax.Unicode.DecimalDigit

/-!
# Integers as arguments

An integer is written in decimal digits of any script, with a sign before them if need be, single
underscores between them at will and blanks around the whole.
-/

namespace JackSyntax

/-- Blanks that may stand around an integer: all blank characters but the four information
separators. -/
def isIntegerBlank (c : Char) : Bool :=
  isBlank c && !(0x1C ≤ c.toNat && c.toNat ≤ 0x1F)

/-- The values of digits that continue an integer, each after at most one underscore. -/
def moreDigitValues : List Char → Option (List Nat)
  | [] => some []
  | '_' :: c :: rest => do return (← decimalDigit? c) :: (← moreDigitValues rest)
  | c :: rest => do return (← decimalDigit? c) :: (← moreDigitValues rest)

/-- The values of the digits of an integer without its sign. -/
def digitValues : List Char → Option (List Nat)
  | [] => none
  | c :: rest => do return (← decimalDigit? c) :: (← moreDigitValues rest)

/-- The integer that digits write, if there are not too many. -/
def naturalArgument? (text : List Char) : Option Nat :=
  (digitValues text).bind fun digits ↦ (naturalOfDigits digits).toOption

/-- The integer that an argument writes. -/
def integerArgument? (text : String) : Option Int :=
  let chars := (text.toList.dropWhile isIntegerBlank).reverse.dropWhile isIntegerBlank |>.reverse
  match chars with
  | '-' :: rest => (naturalArgument? rest).map fun n ↦ -Int.ofNat n
  | '+' :: rest => (naturalArgument? rest).map Int.ofNat
  | rest => (naturalArgument? rest).map Int.ofNat

end JackSyntax
