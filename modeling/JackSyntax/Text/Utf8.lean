/-!
# UTF-8

Decoding of bytes, with the reason and the place of the first fault. A character is one byte below
`0x80`, or a lead byte with the one, two or three continuation bytes it asks for; the lead byte also
bounds the first of them, which rules out overlong forms, surrogates and code points that are too
large.
-/

namespace JackSyntax

namespace Utf8

/-- Why bytes are not UTF-8. -/
inductive Fault where
  /-- A byte that starts no character. -/
  | invalidStart
  /-- A byte that does not continue the character begun. -/
  | invalidContinuation
  /-- The bytes end inside a character. -/
  | truncated
deriving DecidableEq, Repr

/-- The wording of a fault. -/
def Fault.message : Fault → String
  | invalidStart => "invalid start byte"
  | invalidContinuation => "invalid continuation byte"
  | truncated => "unexpected end of data"

/-- A fault and the offset of the first byte of the character it is in. -/
structure DecodeError where
  /-- What is wrong. -/
  fault : Fault
  /-- The number of bytes before the faulty character. -/
  offset : Nat
deriving DecidableEq, Repr

/-- What a lead byte announces. -/
structure Lead where
  /-- How many continuation bytes follow. -/
  count : Nat
  /-- The least first continuation byte. -/
  low : Nat
  /-- The greatest first continuation byte. -/
  high : Nat
  /-- The bits that the lead byte itself gives to the code point. -/
  bits : Nat

/-- What a byte announces, if it starts a character of several bytes. -/
def lead? (b : Nat) : Option Lead :=
  if b < 0xC2 then none
  else if b < 0xE0 then some ⟨1, 0x80, 0xBF, b - 0xC0⟩
  else if b = 0xE0 then some ⟨2, 0xA0, 0xBF, 0⟩
  else if b = 0xED then some ⟨2, 0x80, 0x9F, 0xD⟩
  else if b < 0xF0 then some ⟨2, 0x80, 0xBF, b - 0xE0⟩
  else if b = 0xF0 then some ⟨3, 0x90, 0xBF, 0⟩
  else if b < 0xF4 then some ⟨3, 0x80, 0xBF, b - 0xF0⟩
  else if b = 0xF4 then some ⟨3, 0x80, 0x8F, 4⟩
  else none

/-- Reads `count` continuation bytes, the first of them between `low` and `high`, onto the bits read
so far, and gives the code point and the bytes after it. -/
def continuation : (count low high bits : Nat) → List UInt8 → Except Fault (Nat × List UInt8)
  | 0, _, _, bits, bytes => .ok (bits, bytes)
  | _ + 1, _, _, _, [] => .error .truncated
  | count + 1, low, high, bits, b :: bytes =>
    if low ≤ b.toNat ∧ b.toNat ≤ high then
      continuation count 0x80 0xBF (bits * 64 + (b.toNat - 0x80)) bytes
    else .error .invalidContinuation

theorem length_le_of_continuation {count low high bits n : Nat} {bytes rest : List UInt8}
    (h : continuation count low high bits bytes = .ok (n, rest)) :
    rest.length ≤ bytes.length := by
  fun_induction continuation count low high bits bytes with
  | case1 => simp_all
  | case2 => simp at h
  | case3 count low high bits b bytes _ ih =>
    have := ih h
    simp only [List.length_cons]
    omega
  | case4 => simp at h

/-- The first character and the bytes after it. -/
def next (b : UInt8) (bytes : List UInt8) : Except Fault (Nat × List UInt8) :=
  if b < 0x80 then .ok (b.toNat, bytes)
  else
    match lead? b.toNat with
    | none => .error .invalidStart
    | some lead => continuation lead.count lead.low lead.high lead.bits bytes

theorem length_le_of_next {b : UInt8} {n : Nat} {bytes rest : List UInt8}
    (h : next b bytes = .ok (n, rest)) : rest.length ≤ bytes.length := by
  simp only [next] at h
  split at h
  · simp_all
  · split at h
    · simp at h
    · exact length_le_of_continuation h

/-- The characters of `bytes`, which begin at the given offset, after those already read, which
`read` holds last first. -/
def decodeFrom (offset : Nat) (read : List Char) : List UInt8 → Except DecodeError (List Char)
  | [] => .ok read.reverse
  | b :: bytes =>
    match _ : next b bytes with
    | .error fault => .error ⟨fault, offset⟩
    | .ok (n, rest) =>
      -- Overlong forms are refused, so the character is as wide as the bytes it was read from.
      let c := Char.ofNat n
      decodeFrom (offset + c.utf8Size) (c :: read) rest
termination_by bytes => bytes.length
decreasing_by
  rename_i h
  have := length_le_of_next h
  simp only [List.length_cons]
  omega

/-- The text that the bytes encode, or the first fault. -/
def decode (bytes : ByteArray) : Except DecodeError (List Char) :=
  decodeFrom 0 [] bytes.toList

end Utf8

end JackSyntax
