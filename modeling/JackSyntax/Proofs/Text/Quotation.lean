import Mathlib.Algebra.Group.Nat.Defs
import JackSyntax.Text.Quoted

/-!
# Reading quotations

A text can be read back from its quotation (`readQuotation`), whatever comes after it. A character
is read at a time: a backslash announces an escape, of which the character after it tells how many
digits there are. The quotation ends at the mark that it began with, at the first one that is not
part of an escape, so it does not matter which of the two marks that was.

## Main statements

* `readQuotation_quotedChars`: texts are read back from their quotations.
* `quotedChars_inj`: different texts have different quotations.
* `isPrintable_of_mem_quotedChars`: nothing in a quotation breaks the line.
-/

namespace JackSyntax

variable {mark c : Char} {text : List Char}

/-! ### Hexadecimal digits -/

/-- The value of a hexadecimal digit in lower case. -/
def hexDigitValue (c : Char) : Nat :=
  if c.isDigit then c.toNat - '0'.toNat else c.toNat - 'a'.toNat + 10

/-- The number that hexadecimal digits write. -/
def hexValue (digits : List Char) : Nat :=
  digits.foldl (fun n c ↦ 16 * n + hexDigitValue c) 0

/-- A digit has the value that it was made for. -/
theorem hexDigitValue_digitChar : ∀ d < 16, hexDigitValue (Nat.digitChar d) = d := by
  decide

theorem length_hexDigits (width n : Nat) : (hexDigits width n).length = width := by
  induction width generalizing n with
  | zero => rfl
  | succ width ih => rw [hexDigits, List.length_append, ih, List.length_singleton]

/-- Digits write a number but for what does not fit into them. -/
theorem hexValue_hexDigits (width n : Nat) : hexValue (hexDigits width n) = n % 16 ^ width := by
  induction width generalizing n with
  | zero => exact (Nat.mod_one n).symm
  | succ width ih =>
    have hlast : hexDigitValue (Nat.digitChar (n % 16)) = n % 16 :=
      hexDigitValue_digitChar _ (Nat.mod_lt _ (by decide))
    have happend : hexValue (hexDigits (width + 1) n) =
        16 * hexValue (hexDigits width (n / 16)) + hexDigitValue (Nat.digitChar (n % 16)) := by
      simp only [hexValue, hexDigits, List.foldl_append, List.foldl_cons, List.foldl_nil]
    rw [happend, ih, hlast, Nat.pow_succ, Nat.mul_comm (16 ^ width), Nat.mod_mul, Nat.add_comm]

/-! ### What stands between the marks -/

/-- A text is quoted between apostrophes or between quotation marks. -/
theorem quotationMark_eq (text : List Char) :
    quotationMark text = apostrophe ∨ quotationMark text = '"' := by
  unfold quotationMark
  split
  · exact .inr rfl
  · exact .inl rfl

/-- After a backslash, a letter tells how many digits there are. -/
theorem exists_hexEscape_eq (n : Nat) :
    ∃ letter ∈ ['x', 'u', 'U'], ∃ width, hexEscape n = '\\' :: letter :: hexDigits width n := by
  unfold hexEscape
  split
  · exact ⟨'x', by decide, 2, rfl⟩
  split
  · exact ⟨'u', by decide, 4, rfl⟩
  · exact ⟨'U', by decide, 8, rfl⟩

/-- A character stands for itself only if it is printable and not the mark. -/
theorem escaped_cases (mark c : Char) :
    (∃ a ∈ [mark, '\\', 'n', 'r', 't'], escaped mark c = ['\\', a]) ∨
      (c ≠ mark ∧ isPrintable c = true ∧ escaped mark c = [c]) ∨
      escaped mark c = hexEscape c.toNat := by
  unfold escaped
  split
  · rename_i hc
    simp only [Bool.or_eq_true, decide_eq_true_eq] at hc
    exact .inl ⟨c, by rcases hc with rfl | rfl <;> simp, rfl⟩
  rename_i hc
  split
  · exact .inl ⟨'n', by simp, rfl⟩
  split
  · exact .inl ⟨'r', by simp, rfl⟩
  split
  · exact .inl ⟨'t', by simp, rfl⟩
  split
  · rename_i hprintable
    simp only [Bool.or_eq_true, decide_eq_true_eq, not_or] at hc
    exact .inr (.inl ⟨hc.1, hprintable, rfl⟩)
  · exact .inr (.inr rfl)

/-! ### The decoder -/

/-- The character that so many hexadecimal digits stand for, and the text after them. -/
def readHex (width : Nat) (text : List Char) : Char × List Char :=
  (Char.ofNat (hexValue (text.take width)), text.drop width)

/-- The character that stands first between two marks, and the text after it. -/
def unquote : List Char → Option (Char × List Char)
  | '\\' :: 'x' :: rest => some (readHex 2 rest)
  | '\\' :: 'u' :: rest => some (readHex 4 rest)
  | '\\' :: 'U' :: rest => some (readHex 8 rest)
  | '\\' :: 'n' :: rest => some ('\n', rest)
  | '\\' :: 'r' :: rest => some ('\r', rest)
  | '\\' :: 't' :: rest => some ('\t', rest)
  | '\\' :: c :: rest => some (c, rest)
  | c :: rest => some (c, rest)
  | [] => none

/-- Reading a character takes at least one. -/
theorem length_lt_of_unquote {rest : List Char} (h : unquote text = some (c, rest)) :
    rest.length < text.length := by
  unfold unquote at h
  split at h <;> grind [readHex]

/-- The text up to the next mark that is not part of an escape, and what comes after the mark. -/
def readQuoted (mark : Char) (text : List Char) : Option (List Char × List Char) :=
  if text.head? = some mark then some ([], text.tail)
  else
    match _ : unquote text with
    | some (c, rest) => (readQuoted mark rest).map fun (u, v) ↦ (c :: u, v)
    | none => none
termination_by text.length
decreasing_by
  rename_i h
  exact length_lt_of_unquote h

/-- The text that is quoted in front, and what comes after its quotation. -/
def readQuotation : List Char → Option (List Char × List Char)
  | mark :: text => readQuoted mark text
  | [] => none

/-! ### Quotations are read back -/

/-- A character is read from the digits of its code. -/
theorem readHex_hexDigits {width : Nat} (h : c.toNat < 16 ^ width) (rest : List Char) :
    readHex width (hexDigits width c.toNat ++ rest) = (c, rest) := by
  have hlength := length_hexDigits width c.toNat
  rw [readHex, List.take_left' hlength, List.drop_left' hlength, hexValue_hexDigits,
    Nat.mod_eq_of_lt h, Char.ofNat_toNat]

/-- A code point is read back from its escape, whichever of the three widths holds it. -/
theorem unquote_hexEscape (c : Char) (rest : List Char) :
    unquote (hexEscape c.toNat ++ rest) = some (c, rest) := by
  unfold hexEscape
  split
  · rename_i hsmall
    have hfits : c.toNat < 16 ^ 2 := hsmall
    exact congrArg some (readHex_hexDigits hfits rest)
  split
  · rename_i hmiddle
    have hfits : c.toNat < 16 ^ 4 := hmiddle
    exact congrArg some (readHex_hexDigits hfits rest)
  · have hfits : c.toNat < 16 ^ 8 := Nat.lt_of_lt_of_le c.val.toNat_lt (by decide)
    exact congrArg some (readHex_hexDigits hfits rest)

/-- What stands for a character is read as that character. -/
theorem unquote_escaped (hmark : mark = apostrophe ∨ mark = '"') (c : Char) (rest : List Char) :
    unquote (escaped mark c ++ rest) = some (c, rest) := by
  unfold escaped
  split
  · rename_i hc
    simp only [Bool.or_eq_true, decide_eq_true_eq] at hc
    rcases hc with rfl | rfl
    · rcases hmark with rfl | rfl <;> rfl
    · rfl
  split
  · rename_i hc
    exact hc ▸ rfl
  split
  · rename_i hc
    exact hc ▸ rfl
  split
  · rename_i hc
    exact hc ▸ rfl
  split
  · rename_i hc _ _ _ _
    simp only [Bool.or_eq_true, decide_eq_true_eq, not_or] at hc
    simp [unquote, hc.2]
  · exact unquote_hexEscape c rest

/-- Nothing that stands for a character looks like the mark. -/
theorem head?_escaped_ne (hmark : mark = apostrophe ∨ mark = '"') (c : Char) (rest : List Char) :
    (escaped mark c ++ rest).head? ≠ some mark := by
  have hbackslash : '\\' ≠ mark := by
    rcases hmark with rfl | rfl <;> decide
  rcases escaped_cases mark c with ⟨a, -, heq⟩ | ⟨hc, -, heq⟩ | heq
  · simpa [heq] using hbackslash
  · simpa [heq] using hc
  · obtain ⟨letter, -, width, hhex⟩ := exists_hexEscape_eq c.toNat
    simpa [heq, hhex] using hbackslash

/-- A quoted text is read back up to its closing mark. -/
theorem readQuoted_flatMap (hmark : mark = apostrophe ∨ mark = '"') (text rest : List Char) :
    readQuoted mark (text.flatMap (escaped mark) ++ mark :: rest) = some (text, rest) := by
  induction text with
  | nil =>
    rw [List.flatMap_nil, List.nil_append, readQuoted, List.head?_cons, if_pos rfl, List.tail_cons]
  | cons c text ih =>
    rw [List.flatMap_cons, List.append_assoc, readQuoted, if_neg (head?_escaped_ne hmark c _)]
    split
    · rename_i hread
      rw [unquote_escaped hmark] at hread
      obtain ⟨rfl, rfl⟩ := Prod.mk.inj (Option.some.inj hread)
      rw [ih]
      rfl
    · rename_i hread
      simp [unquote_escaped hmark] at hread

/-- A text is read back from its quotation, whatever comes after it. -/
theorem readQuotation_quotedChars (text rest : List Char) :
    readQuotation (quotedChars text ++ rest) = some (text, rest) := by
  rw [quotedChars, List.append_assoc]
  exact readQuoted_flatMap (quotationMark_eq text) text rest

/-- Different texts have different quotations, also if the marks around them differ. -/
theorem quotedChars_inj {text text' : List Char} (h : quotedChars text = quotedChars text') :
    text = text' := by
  have hread := readQuotation_quotedChars text []
  rw [h, readQuotation_quotedChars text' []] at hread
  exact (Prod.mk.inj (Option.some.inj hread)).1.symm

/-! ### Quotations are printable -/

theorem isPrintable_digitChar : ∀ d < 16, isPrintable (Nat.digitChar d) = true := by
  decide +kernel

/-- Digits can be printed. -/
theorem isPrintable_of_mem_hexDigits {width n : Nat} (h : c ∈ hexDigits width n) :
    isPrintable c = true := by
  induction width generalizing n with
  | zero => simp [hexDigits] at h
  | succ width ih =>
    rcases List.mem_append.1 h with hinit | hlast
    · exact ih hinit
    · obtain rfl := List.mem_singleton.1 hlast
      exact isPrintable_digitChar _ (Nat.mod_lt _ (by decide))

/-- Escapes begin with a backslash, and a letter tells of which kind they are. -/
theorem isPrintable_of_mem_letters (h : c ∈ ['\\', 'n', 'r', 't'] ++ ['x', 'u', 'U']) :
    isPrintable c = true := by
  have hall : (['\\', 'n', 'r', 't'] ++ ['x', 'u', 'U']).all isPrintable = true := by decide +kernel
  exact List.all_eq_true.1 hall c h

theorem isPrintable_of_mem_hexEscape {n : Nat} (h : c ∈ hexEscape n) : isPrintable c = true := by
  obtain ⟨letter, hletter, width, heq⟩ := exists_hexEscape_eq n
  rw [heq] at h
  rcases List.mem_cons.1 h with rfl | h
  · exact isPrintable_of_mem_letters (by decide)
  rcases List.mem_cons.1 h with rfl | h
  · exact isPrintable_of_mem_letters (List.mem_append_right _ hletter)
  · exact isPrintable_of_mem_hexDigits h

theorem isPrintable_of_eq_mark (hmark : mark = apostrophe ∨ mark = '"') :
    isPrintable mark = true := by
  rcases hmark with rfl | rfl <;> decide +kernel

/-- Nothing in a quotation is unprintable. -/
theorem isPrintable_of_mem_escaped (hmark : mark = apostrophe ∨ mark = '"') {a : Char}
    (h : c ∈ escaped mark a) : isPrintable c = true := by
  rcases escaped_cases mark a with ⟨b, hb, heq⟩ | ⟨-, hprintable, heq⟩ | heq
  · rw [heq, List.mem_cons, List.mem_singleton] at h
    rcases h with rfl | rfl
    · exact isPrintable_of_mem_letters (by decide)
    rcases List.mem_cons.1 hb with rfl | hletter
    · exact isPrintable_of_eq_mark hmark
    · exact isPrintable_of_mem_letters (List.mem_append_left _ hletter)
  · rw [heq] at h
    exact List.mem_singleton.1 h ▸ hprintable
  · rw [heq] at h
    exact isPrintable_of_mem_hexEscape h

/-- The characters of a quotation are printable, so it does not break the line. -/
theorem isPrintable_of_mem_quotedChars (h : c ∈ quotedChars text) : isPrintable c = true := by
  have hmark := isPrintable_of_eq_mark (quotationMark_eq text)
  rw [quotedChars, List.mem_append, List.mem_cons, List.mem_singleton, List.mem_flatMap] at h
  rcases h with (rfl | ⟨a, -, ha⟩) | rfl
  · exact hmark
  · exact isPrintable_of_mem_escaped (quotationMark_eq text) ha
  · exact hmark

end JackSyntax
