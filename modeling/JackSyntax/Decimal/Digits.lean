/-!
# Digits of integers

An integer is read from decimal digits and written in them only if there are not too many.
-/

namespace JackSyntax

/-- The most decimal digits of an integer that is read or written. -/
def maxDigits : Nat := 4300

/-- An integer with too many digits. -/
inductive DigitError where
  /-- The integer was to be read, from so many digits. -/
  | reading (count : Nat)
  /-- The integer was to be written. -/
  | writing
deriving DecidableEq, Repr

/-- The wording of the error. -/
def DigitError.message (e : DigitError) : String :=
  let count := match e with
    | reading n => ": value has " ++ toString n ++ " digits"
    | writing => ""
  "Exceeds the limit (" ++ toString maxDigits ++ " digits) for integer string conversion" ++ count ++
    "; use sys.set_int_max_str_digits() to increase the limit"

/-- The number that digits write, if there are not too many. -/
def naturalOfDigits (digits : List Nat) : Except DigitError Nat :=
  if maxDigits < digits.length then .error (.reading digits.length)
  else .ok (digits.foldl (fun n d ↦ 10 * n + d) 0)

/-- The decimal text of an integer, if it has not too many digits. -/
def integerText (n : Int) : Except DigitError String :=
  if maxDigits < (toString n.natAbs).length then .error .writing else .ok (toString n)

end JackSyntax
