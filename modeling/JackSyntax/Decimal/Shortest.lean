/-!
# Shortest decimals

Real numbers are kept in 53 binary digits, so many decimals stand for the same number. `shortest`
finds the one with the fewest digits, and of those the nearest. All of it is exact arithmetic: a
decimal is a natural number times a power of ten, a binary number a natural number times a power of
two.
-/

namespace JackSyntax

/-- The decimal `digits * 10 ^ exponent`. -/
structure Decimal where
  /-- The digits, as one number. -/
  digits : Nat
  /-- The power of ten. -/
  exponent : Int
deriving DecidableEq, Repr

/-- The binary number `bits * 2 ^ exponent`. -/
structure Binary where
  /-- The bits, as one number. -/
  bits : Nat
  /-- The power of two. -/
  exponent : Int
deriving DecidableEq, Repr

/-- The nearest integer to a quotient, the even one of two. -/
def roundDiv (n d : Nat) : Nat :=
  let q := n / d
  let r := n % d
  if 2 * r < d then q else if d < 2 * r then q + 1 else if q % 2 = 0 then q else q + 1

/-- A power of two. -/
def twoTo (n : Nat) : Nat := Nat.pow 2 n

/-- A power of ten. -/
def tenTo (n : Nat) : Nat := Nat.pow 10 n

namespace Binary

/-- The least power of two that a number may have. -/
def minExponent : Int := -1074

/-- The nearest binary number of 53 bits to a quotient of positive numbers. -/
def ofRatio (n d : Nat) : Binary :=
  -- The quotient lies between `2 ^ (k - 1)` and `2 ^ (k + 1)`.
  let k : Int := (n.log2 : Int) - d.log2
  let top := if d * twoTo k.toNat ≤ n * twoTo (-k).toNat then k else k - 1
  let q := max (top - 52) minExponent
  let m := roundDiv (n * twoTo (-q).toNat) (d * twoTo q.toNat)
  if m = twoTo 53 then ⟨twoTo 52, q + 1⟩ else ⟨m, q⟩

/-- Compares `digits * 10 ^ e` with `bits * 2 ^ q`. -/
def compareDecimal (a : Decimal) (b : Binary) : Ordering :=
  compare (a.digits * tenTo a.exponent.toNat * twoTo (-b.exponent).toNat)
    (b.bits * twoTo b.exponent.toNat * tenTo (-a.exponent).toNat)

/-- The least number between this one and the next smaller one that still rounds to this one. -/
def lower (b : Binary) : Binary :=
  if b.bits = twoTo 52 ∧ b.exponent > minExponent then ⟨4 * b.bits - 1, b.exponent - 2⟩
  else ⟨2 * b.bits - 1, b.exponent - 1⟩

/-- The greatest number between this one and the next larger one that still rounds to this one. -/
def upper (b : Binary) : Binary :=
  ⟨2 * b.bits + 1, b.exponent - 1⟩

/-- Whether the decimal rounds to the number; the ends of the range do if the last bit is zero. -/
def readsAs (a : Decimal) (b : Binary) : Bool :=
  let low := compareDecimal a b.lower
  let high := compareDecimal a b.upper
  if b.bits % 2 = 0 then low.isGE && high.isLE else low.isGT && high.isLT

/-- The decimal with the power of ten `g` below or at the number. -/
def floorDecimal (b : Binary) (g : Int) : Decimal :=
  ⟨(b.bits * twoTo b.exponent.toNat * tenTo (-g).toNat) /
    (tenTo g.toNat * twoTo (-b.exponent).toNat), g⟩

/-- The better of two neighbouring decimals: the one that rounds to the number, the nearer if both
do, and of two equally near the even one. -/
def better? (b : Binary) (low high : Decimal) : Option Decimal :=
  match readsAs low b, readsAs high b with
  | false, false => none
  | true, false => some low
  | false, true => some high
  | true, true =>
    let middle : Decimal := ⟨10 * low.digits + 5, low.exponent - 1⟩
    match compareDecimal middle b with
    | .gt => some low
    | .lt => some high
    | .eq => some (if low.digits % 2 = 0 then low else high)

/-- The best decimal with the power of ten `g`, if one rounds to the number. -/
def onGrid? (b : Binary) (g : Int) : Option Decimal :=
  let low := b.floorDecimal g
  better? b low ⟨low.digits + 1, g⟩

/-- The shortest decimal that rounds to the number, which lies below `10 ^ point`. Seventeen digits
always suffice. -/
def shortest (b : Binary) (point : Int) : Decimal :=
  let grids := (List.range 17).map fun n ↦ point - 1 - Int.ofNat n
  (grids.findSome? b.onGrid?).getD (b.floorDecimal (point - 17))

end Binary

namespace Decimal

/-- The decimal without zeros at its end. -/
def dropZeros (a : Decimal) : Decimal :=
  let digits := (toString a.digits).toList
  let zeros := (digits.reverse.takeWhile (· == '0')).length
  ⟨a.digits / tenTo zeros, a.exponent + zeros⟩

/-- So many zeros. -/
def zeros (count : Nat) : String :=
  String.ofList (List.replicate count '0')

/-- An exponent with its sign and at least two digits. -/
def exponentText (e : Int) : String :=
  let digits := toString e.natAbs
  (if e < 0 then "-" else "+") ++ (if digits.length < 2 then "0" ++ digits else digits)

/-- The decimal in positional form if its point stands at most 16 places after its first digit and
at most four zeros precede it, and with an exponent otherwise. -/
def text (a : Decimal) : String :=
  let digits := toString a.digits
  let point := a.exponent + digits.length
  if -4 < point ∧ point ≤ 16 then
    if point ≤ 0 then "0." ++ zeros (-point).toNat ++ digits
    else if a.exponent ≥ 0 then digits ++ zeros a.exponent.toNat ++ ".0"
    else
      String.ofList (digits.toList.take point.toNat) ++ "." ++
        String.ofList (digits.toList.drop point.toNat)
  else
    let fraction := String.ofList (digits.toList.drop 1)
    String.ofList (digits.toList.take 1) ++ (if fraction = "" then "" else "." ++ fraction) ++
      "e" ++ exponentText (point - 1)

/-- The text of the number of 53 bits that the decimal stands for, by its shortest decimal. Numbers
beyond the largest are infinite, and those nearest to zero are zero. -/
def shortestText (a : Decimal) : String :=
  let point := a.exponent + (toString a.digits).length
  -- Far beyond both ends of the range the answer is clear without large powers.
  if a.digits = 0 ∨ point < -330 then "0.0"
  else if point > 310 then "inf"
  else
    let b := Binary.ofRatio (a.digits * tenTo a.exponent.toNat) (tenTo (-a.exponent).toNat)
    if b.bits = 0 then "0.0"
    else if b.bits * twoTo b.exponent.toNat ≥ twoTo 1024 then "inf"
    else
      let point := if (b.floorDecimal point).digits = 0 then point else point + 1
      (b.shortest point).dropZeros.text

end Decimal

end JackSyntax
