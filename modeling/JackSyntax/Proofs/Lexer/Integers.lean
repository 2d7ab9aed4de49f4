import Mathlib.Algebra.Group.Nat.Defs
import JackSyntax.Lexer.Conversion
import JackSyntax.Proofs.Lexer.RoundTrip

/-!
# Integer constants

An integer constant is a run of decimal digits, read for its value. Zeros in front change neither
the value nor the text of the token, which is how the value is written (`IsNumeral`): the digits
that count are the only numeral of their value (`toDigits_ofDigitChars`). Whether the constant is
refused depends on the value alone, though the scanner looks at the number of those digits first
(`exceeds_iff`).

Comparing these numbers is meant to keep digits from being read that are too many to be converted.
It does so unless the maximum is below zero and itself about as long as an integer that is written
may be: then its sign counts as a digit, and one digit too many goes through (`SignCounts`).
Anywhere else the conversions agree with `scanInteger` (`convertInteger_of_run`), and for a maximum
that is shorter than that nothing is left of them (`Tokenizer.nextConverted_of_lt`).

## Main statements

* `toDigits_ofDigitChars`: a numeral is how its value is written.
* `Tokenizer.nextConverted_of_lt`: conversions make no difference unless the maximum is very long.
* `Tokenizer.integer_exact`: what is read at a run of digits.
-/

namespace JackSyntax

variable {digits rest : List Char} {c : Char} {maximum : Int}

/-! ### Numerals -/

/-- The digits of a number as it is written: at least one, and no zero in front of others. -/
structure IsNumeral (digits : List Char) : Prop where
  all : ∀ c ∈ digits, c.isDigit = true
  ne_nil : digits ≠ []
  head : digits.head? = some '0' → digits = ['0']

theorem digitChar_of_isDigit (hc : c.isDigit = true) :
    c.toNat - '0'.toNat < 10 ∧ Nat.digitChar (c.toNat - '0'.toNat) = c := by
  simp only [Char.isDigit, Bool.and_eq_true, decide_eq_true_eq] at hc
  have hge : '0'.toNat ≤ c.toNat := hc.1
  have hle : c.toNat ≤ '9'.toNat := hc.2
  have hlt : c.toNat - '0'.toNat < 10 := by
    have : '9'.toNat = '0'.toNat + 9 := rfl
    omega
  refine ⟨hlt, Char.toNat_inj.1 ?_⟩
  rw [Nat.toNat_digitChar_of_lt_ten hlt]
  exact Nat.add_sub_of_le hge

/-- Digits after those of a number that is not zero. -/
theorem toDigits_append {n : Nat} (hn : 0 < n) (hdigits : ∀ c ∈ digits, c.isDigit = true) :
    Nat.toDigits 10 n ++ digits = Nat.toDigits 10 (Nat.ofDigitChars 10 digits n) := by
  induction digits generalizing n with
  | nil => simp
  | cons c digits ih =>
    obtain ⟨hc, hdigits⟩ := List.forall_mem_cons.1 hdigits
    obtain ⟨hlt, hchar⟩ := digitChar_of_isDigit hc
    have hone : Nat.toDigits 10 n ++ [c] =
        Nat.toDigits 10 (10 * n + (c.toNat - '0'.toNat)) := by
      rw [← Nat.toDigits_append_toDigits (by decide) hn hlt, Nat.toDigits_of_lt_base hlt, hchar]
    rw [Nat.ofDigitChars_cons, ← ih (by omega) hdigits, ← hone, List.append_assoc]
    rfl

/-- A numeral is how its value is written. -/
theorem toDigits_ofDigitChars (h : IsNumeral digits) :
    Nat.toDigits 10 (Nat.ofDigitChars 10 digits 0) = digits := by
  obtain ⟨c, digits, rfl⟩ := List.exists_cons_of_ne_nil h.ne_nil
  by_cases hzero : c = '0'
  · rw [hzero] at h ⊢
    rw [h.head rfl]
    rfl
  · obtain ⟨hc, hdigits⟩ := List.forall_mem_cons.1 h.all
    obtain ⟨hlt, hchar⟩ := digitChar_of_isDigit hc
    have hpos : 0 < c.toNat - '0'.toNat := one_le_digit hc hzero
    rw [Nat.ofDigitChars_cons, Nat.mul_zero, Nat.zero_add, ← toDigits_append hpos hdigits,
      Nat.toDigits_of_lt_base hlt, hchar]
    rfl

/-- Digits are zeros and the numeral that the digits which count make. -/
theorem exists_zeros (hne : digits ≠ []) (hdigits : ∀ c ∈ digits, c.isDigit = true) :
    IsNumeral (significantDigits digits) ∧
      ∃ zeros, digits = List.replicate zeros '0' ++ significantDigits digits := by
  have hzeros : digits.takeWhile (· == '0') =
      List.replicate (digits.takeWhile (· == '0')).length '0' :=
    List.eq_replicate_of_mem fun c hc ↦ by
      simpa using List.all_eq_true.1 List.all_takeWhile c hc
  have hsplit : digits.takeWhile (· == '0') ++ digits.dropWhile (· == '0') = digits :=
    List.takeWhile_append_dropWhile
  have hhead := List.head?_dropWhile_not (· == '0') digits
  have hcount : ∀ c ∈ digits.dropWhile (· == '0'), c.isDigit = true := fun c hc ↦
    hdigits c (List.dropWhile_subset _ hc)
  rw [hzeros] at hsplit
  unfold significantDigits
  split
  · -- Of zeros alone the last one counts.
    rename_i hnil
    rw [hnil, List.append_nil] at hsplit
    obtain ⟨zeros, hlength⟩ : ∃ zeros, (digits.takeWhile (· == '0')).length = zeros + 1 := by
      refine Nat.exists_eq_succ_of_ne_zero fun hzero ↦ hne ?_
      rw [← hsplit, hzero, List.replicate_zero]
    refine ⟨⟨List.forall_mem_singleton.2 rfl, by simp, fun _ ↦ rfl⟩, zeros, ?_⟩
    rw [← List.replicate_succ', ← hlength, hsplit]
  · rename_i hnil
    refine ⟨⟨hcount, hnil, fun hzero ↦ ?_⟩, _, hsplit.symm⟩
    rw [hzero] at hhead
    simp at hhead

/-- The text of the value is the numeral that the digits are but for zeros in front. -/
theorem toList_toString_value (hne : digits ≠ []) (hdigits : ∀ c ∈ digits, c.isDigit = true) :
    (toString (Nat.ofDigitChars 10 digits 0 : Int)).toList = significantDigits digits := by
  rw [toList_toString_natCast, ← decimalValue_significantDigits]
  exact toDigits_ofDigitChars (exists_zeros hne hdigits).1

/-! ### Reading constants -/

/-- A run of digits is read unless its value is above the maximum. -/
theorem scanInteger_of_run (hrun : MaximalRun Char.isDigit digits rest) (maximum : Int) :
    scanInteger maximum (digits ++ rest) =
      if (Nat.ofDigitChars 10 digits 0 : Int) ≤ maximum then
        .ok ⟨.integer (Nat.ofDigitChars 10 digits 0), digits, rest⟩
      else .error (.outOfRange (String.ofList digits) maximum) := by
  simp only [scanInteger, hrun.takeWhile, hrun.dropWhile, exceeds_iff hrun.all, ite_not]
  rw [decimalValue_significantDigits]

/-! ### Conversions -/

theorem maxDigits_pos : 0 < maxDigits := by decide

/-- So many digits are enough for the numbers below a power of ten. -/
theorem length_toString_le_iff {k : Nat} (hk : 0 < k) (n : Nat) :
    (toString n).length ≤ k ↔ n < 10 ^ k :=
  Nat.length_repr_le_iff hk

/-- The sign of an integer below zero is one more character than its digits. -/
theorem length_toString (n : Int) :
    (toString n).length = (toString n.natAbs).length + if n < 0 then 1 else 0 := by
  rw [← String.length_toList, toList_toString, Nat.toString_eq_repr, ← String.length_toList,
    Nat.toList_repr, List.length_append, Nat.add_comm]
  split <;> rfl

/-- The digits that count are as many as the value has. -/
theorem length_significantDigits (hne : digits ≠ []) (hdigits : ∀ c ∈ digits, c.isDigit = true) :
    (significantDigits digits).length = (toString (Nat.ofDigitChars 10 digits 0)).length := by
  rw [← toList_toString_value hne hdigits, String.length_toList, length_toString]
  rfl

/-- An integer is written unless it has too many digits. -/
theorem integerText_eq (n : Int) : integerText n =
    if 10 ^ maxDigits ≤ n.natAbs then .error .writing else .ok (toString n) := by
  have hlength : maxDigits < (toString n.natAbs).length ↔ 10 ^ maxDigits ≤ n.natAbs := by
    rw [← Nat.not_le, length_toString_le_iff maxDigits_pos, Nat.not_lt]
  simp only [integerText, hlength]

/-- The value has one digit more than can be read, and the maximum is below zero and has as many
digits as can be written. So the digits are not more than the characters of the maximum. -/
structure SignCounts (maximum : Int) (value : Nat) : Prop where
  maximum_le : maximum ≤ -(10 ^ (maxDigits - 1) : Nat)
  le_value : 10 ^ maxDigits ≤ value
  value_lt : value < 10 ^ (maxDigits + 1)

/-- The sign counts where the digits are too many to be read and still not more than the characters of
the maximum. -/
theorem signCounts_iff (hmaximum : maximum.natAbs < 10 ^ maxDigits) (value : Nat) :
    SignCounts maximum value ↔ maxDigits < (toString value).length ∧
      (toString value).length ≤ (toString maximum).length := by
  have hpos := maxDigits_pos
  have hwritten := (length_toString_le_iff hpos _).2 hmaximum
  have hlong := length_toString_le_iff hpos value
  have hlonger := length_toString_le_iff (show 0 < maxDigits + 1 by decide) value
  have hshort := length_toString_le_iff (show 0 < maxDigits - 1 by decide) maximum.natAbs
  rw [length_toString]
  constructor
  · rintro ⟨hle, hge, hlt⟩
    have hten : 0 < 10 ^ (maxDigits - 1) := Nat.pow_pos (by decide)
    have hneg : maximum < 0 := by omega
    rw [if_pos hneg]
    omega
  · rintro ⟨hcount, hle⟩
    by_cases hneg : maximum < 0
    · rw [if_pos hneg] at hle
      exact ⟨by omega, by omega, by omega⟩
    · rw [if_neg hneg] at hle
      omega

/-- The maximum is written first, whatever the text is. -/
theorem convertInteger_of_le (hmaximum : 10 ^ maxDigits ≤ maximum.natAbs) (text : List Char) :
    convertInteger maximum text = .error .writing := by
  simp only [convertInteger, integerText_eq, if_pos hmaximum]
  rfl

/-- If the maximum is written, a run of digits is read as `scanInteger` reads it, unless the sign of
the maximum counts. -/
theorem convertInteger_of_run (hne : digits ≠ []) (hrun : MaximalRun Char.isDigit digits rest)
    (hmaximum : maximum.natAbs < 10 ^ maxDigits) :
    (SignCounts maximum (Nat.ofDigitChars 10 digits 0) →
      convertInteger maximum (digits ++ rest) = .error (.reading (maxDigits + 1))) ∧
    (¬ SignCounts maximum (Nat.ofDigitChars 10 digits 0) →
      convertInteger maximum (digits ++ rest) = .ok (scanInteger maximum (digits ++ rest))) := by
  have hvalue : naturalOfDigits ((significantDigits digits).map fun c ↦ c.toNat - '0'.toNat) =
      if maxDigits < (significantDigits digits).length then
        .error (.reading (significantDigits digits).length)
      else .ok (decimalValue (significantDigits digits)) := by
    rw [naturalOfDigits, List.length_map, List.foldl_map]
    rfl
  have hwritten := (length_toString_le_iff maxDigits_pos _).2 hmaximum
  have hsign := length_toString maximum
  rw [signCounts_iff hmaximum, ← length_significantDigits hne hrun.all]
  simp only [convertInteger, scanInteger, integerText_eq, if_neg (Nat.not_le.2 hmaximum), hvalue,
    hrun.takeWhile, hrun.dropWhile, bind, Except.bind]
  by_cases hlong : (significantDigits digits).length > (toString maximum).length
  · rw [if_pos hlong, if_pos (Or.inl hlong)]
    exact ⟨fun h ↦ absurd h.2 (Nat.not_le.2 hlong), fun _ ↦ rfl⟩
  by_cases hmany : maxDigits < (significantDigits digits).length
  · have hcount : (significantDigits digits).length = maxDigits + 1 := by
      split at hsign <;> omega
    rw [if_neg hlong, if_pos hmany, hcount]
    exact ⟨fun _ ↦ rfl, fun h ↦ absurd ⟨Nat.lt_succ_self _, by omega⟩ h⟩
  · rw [if_neg hlong, if_neg hmany]
    simp only [or_iff_right hlong]
    refine ⟨fun h ↦ absurd h.1 hmany, fun _ ↦ ?_⟩
    split <;> rfl

/-- Below a power of ten there is no such maximum. -/
theorem not_signCounts_of_lt (hmaximum : maximum.natAbs < 10 ^ (maxDigits - 1)) (value : Nat) :
    ¬ SignCounts maximum value := fun h ↦ by
  have hle := h.maximum_le
  omega

/-- For a maximum that is shorter than that, conversions make no difference. -/
theorem convertInteger_of_lt (hmaximum : maximum.natAbs < 10 ^ (maxDigits - 1))
    (hc : c.isDigit = true) (text : List Char) :
    convertInteger maximum (c :: text) = .ok (scanInteger maximum (c :: text)) := by
  have hrun := maximalRun_takeWhile Char.isDigit (c :: text)
  have hne : (c :: text).takeWhile Char.isDigit ≠ [] := by
    rw [List.takeWhile_cons_of_pos hc]
    exact List.cons_ne_nil _ _
  have hwritten : maximum.natAbs < 10 ^ maxDigits :=
    Nat.lt_of_lt_of_le hmaximum (Nat.pow_le_pow_right (by decide) (Nat.sub_le _ _))
  have hread := (convertInteger_of_run hne hrun hwritten).2 (not_signCounts_of_lt hmaximum _)
  rwa [List.takeWhile_append_dropWhile] at hread

namespace Tokenizer

variable {t : Tokenizer}

/-! ### Reading constants one by one -/

/-- Where the sign of the maximum does not count, a run of digits is read by its value. -/
theorem integer_of_run (hrest : t.rest = digits ++ rest) (hne : digits ≠ [])
    (hrun : MaximalRun Char.isDigit digits rest)
    (hmaximum : t.limits.maxInteger.natAbs < 10 ^ maxDigits)
    (hsign : ¬ SignCounts t.limits.maxInteger (Nat.ofDigitChars 10 digits 0)) :
    t.integer =
      if (Nat.ofDigitChars 10 digits 0 : Int) ≤ t.limits.maxInteger then
        (.ok ⟨.integer (Nat.ofDigitChars 10 digits 0),
            t.cursor.position, (t.cursor.advance digits).position⟩,
          { t with rest, cursor := t.cursor.advance digits })
      else
        (.error (.lexical ⟨.outOfRange (String.ofList digits) t.limits.maxInteger,
          t.cursor.position⟩), t) := by
  rw [integer, hrest, (convertInteger_of_run hne hrun hmaximum).2 hsign, scanInteger_of_run hrun]
  by_cases hle : (Nat.ofDigitChars 10 digits 0 : Int) ≤ t.limits.maxInteger
  · rw [if_pos hle, if_pos hle]
    rfl
  · rw [if_neg hle, if_neg hle]

/-- Where the sign of the maximum counts, the digits are too many to be read. -/
theorem integer_of_signCounts (hrest : t.rest = digits ++ rest) (hne : digits ≠ [])
    (hrun : MaximalRun Char.isDigit digits rest)
    (hmaximum : t.limits.maxInteger.natAbs < 10 ^ maxDigits)
    (hsign : SignCounts t.limits.maxInteger (Nat.ofDigitChars 10 digits 0)) :
    t.integer = (.error (.digits (.reading (maxDigits + 1))), t) := by
  rw [integer, hrest, (convertInteger_of_run hne hrun hmaximum).1 hsign]

/-- Where digits come next, the next token is the integer constant there, which is then counted. -/
theorem nextConverted_of_run (hrest : t.rest = digits ++ rest) (hne : digits ≠ [])
    (hrun : MaximalRun Char.isDigit digits rest) (hspent : ¬ t.isSpent = true) :
    t.nextConverted = match t.integer with
      | (.error e, t') => (.error e, t')
      | (.ok token, t') => (.ok (some token), { t' with emitted := t.emitted + 1 }) := by
  obtain ⟨c, digits, rfl⟩ := List.exists_cons_of_ne_nil hne
  have hc : c.isDigit = true := hrun.all c List.mem_cons_self
  have hslash : c ≠ '/' := by
    rintro rfl
    simp at hc
  have hstarts := startsTrivia_cons_eq_false (isBlank_of_isDigit hc) hslash (digits ++ rest)
  rw [List.cons_append] at hrest
  have hskip : t.skipTrivia = t := skipTrivia_of_not_startsTrivia (hrest ▸ hstarts)
  simp only [nextConverted, hskip, hrest, hspent, hc, List.head?_cons, Option.any_some]
  rfl

/-- Conversions make no difference unless the maximum is about as long as an integer may be. -/
theorem nextConverted_of_lt (hmaximum : t.limits.maxInteger.natAbs < 10 ^ (maxDigits - 1)) :
    t.nextConverted = (t.next.1.mapError .lexical, t.next.2) := by
  unfold nextConverted
  split
  · rename_i hdigit
    rw [Bool.and_eq_true, Bool.not_eq_true'] at hdigit
    obtain ⟨hspent, hhead⟩ := hdigit
    obtain ⟨c, text, hrest⟩ : ∃ c text, t.skipTrivia.rest = c :: text :=
      List.exists_cons_of_ne_nil fun hnil ↦ by simp [hnil] at hhead
    have hc : c.isDigit = true := by simpa [hrest] using hhead
    have hconvert := @convertInteger_of_lt c t.skipTrivia.limits.maxInteger hmaximum hc text
    simp only [integer, next, hspent, hrest, hconvert, scanLexeme_of_isDigit hc,
      Bool.false_eq_true, if_false]
    rcases scanInteger t.skipTrivia.limits.maxInteger (c :: text) with cause | scan
    · rfl
    · rfl
  · rfl

/-- What is read at a run of digits that no digit follows, of any length and with any number of
zeros in front. Let the maximum be an integer that can be written. A constant is read exactly if the
value of the digits is not above the maximum. The token has that value, and its text is the numeral
that the digits are but for zeros in front of it; the tokenizer is then past the digits. Otherwise
there is a lexical error at the first digit, where the tokenizer stays, but for values one digit
longer than what can be read, against a maximum whose sign counts: these fail to be read. With a
maximum that is too long to be written nothing is read at all. The next token is read in the same
way, if there may be one. -/
theorem integer_exact (hrest : t.rest = digits ++ rest) (hne : digits ≠ [])
    (hrun : MaximalRun Char.isDigit digits rest) :
    let value : Nat := Nat.ofDigitChars 10 digits 0
    let maximum := t.limits.maxInteger
    (maximum.natAbs < 10 ^ maxDigits →
      ((∃ token t', t.integer = (.ok token, t')) ↔ (value : Int) ≤ maximum) ∧
      (∀ token t', t.integer = (.ok token, t') →
        token.lexeme = .integer value ∧ IsNumeral token.lexeme.text.toList ∧
        (∃ zeros, digits = List.replicate zeros '0' ++ token.lexeme.text.toList) ∧
        token.span = ⟨t.cursor.position, (t.cursor.advance digits).position⟩ ∧
        t' = { t with rest, cursor := t.cursor.advance digits }) ∧
      (¬ (value : Int) ≤ maximum → ¬ SignCounts maximum value → t.integer =
        (.error (.lexical ⟨.outOfRange (String.ofList digits) maximum, t.cursor.position⟩), t)) ∧
      (SignCounts maximum value →
        t.integer = (.error (.digits (.reading (maxDigits + 1))), t))) ∧
    (10 ^ maxDigits ≤ maximum.natAbs → t.integer = (.error (.digits .writing), t)) ∧
    (¬ t.isSpent = true → t.nextConverted = match t.integer with
      | (.error e, t') => (.error e, t')
      | (.ok token, t') => (.ok (some token), { t' with emitted := t.emitted + 1 })) := by
  intro value maximum
  have hnext := nextConverted_of_run hrest hne hrun
  have hlong : 10 ^ maxDigits ≤ maximum.natAbs → t.integer = (.error (.digits .writing), t) :=
    fun hmaximum ↦ by rw [integer, convertInteger_of_le hmaximum]
  refine ⟨fun hmaximum ↦ ?_, hlong, hnext⟩
  have hmany : SignCounts maximum value → _ := integer_of_signCounts hrest hne hrun hmaximum
  have hread : ¬ SignCounts maximum value → t.integer = _ := integer_of_run hrest hne hrun hmaximum
  by_cases hle : (value : Int) ≤ maximum
  · have hsign : ¬ SignCounts maximum value := fun h ↦ by
      have := h.maximum_le
      have : 0 < 10 ^ (maxDigits - 1) := Nat.pow_pos (by decide)
      omega
    have hread := hread hsign
    rw [if_pos hle] at hread
    refine ⟨iff_of_true ⟨_, _, hread⟩ hle, fun token t' htoken ↦ ?_,
      fun hgt ↦ absurd hle hgt, hmany⟩
    obtain ⟨hok, rfl⟩ := Prod.mk.inj (hread.symm.trans htoken)
    obtain rfl := Except.ok.inj hok
    have htext : (Lexeme.integer value).text.toList = significantDigits digits :=
      toList_toString_value hne hrun.all
    obtain ⟨hnumeral, hzeros⟩ := exists_zeros hne hrun.all
    rw [← htext] at hnumeral hzeros
    exact ⟨rfl, hnumeral, hzeros, rfl, rfl⟩
  · have hnone : ∀ token t', t.integer ≠ (.ok token, t') := fun token t' htoken ↦ by
      by_cases hsign : SignCounts maximum value
      · simp [hmany hsign] at htoken
      · simp [hread hsign, hle, value, maximum] at htoken
    refine ⟨iff_of_false (fun ⟨token, t', htoken⟩ ↦ hnone token t' htoken) hle,
      fun token t' htoken ↦ absurd htoken (hnone token t'), fun _ hsign ↦ ?_, hmany⟩
    rw [hread hsign, if_neg hle]

/-- A maximum that is below zero and still has more characters than the number, which has zeros in
front. -/
theorem integer_exact_negative :
    let t : Tokenizer := { ofText "x 0007;" ⟨9, -10⟩ with
      rest := "0007;".toList, cursor := Cursor.start.advance "x ".toList }
    t.rest = "0007".toList ++ ";".toList ∧ MaximalRun Char.isDigit "0007".toList ";".toList ∧
      ¬ (7 : Int) ≤ t.limits.maxInteger ∧
      t.integer = (.error (.lexical ⟨.outOfRange "0007" (-10), ⟨1, 3, 2⟩⟩), t) := by
  intro t
  have hrun : MaximalRun Char.isDigit "0007".toList ";".toList :=
    ⟨List.all_eq_true.1 (by decide), by simp⟩
  have hgt : ¬ (7 : Int) ≤ t.limits.maxInteger := by decide
  have hwritten : 10 < 10 ^ maxDigits := (length_toString_le_iff maxDigits_pos 10).1 (by decide)
  have hsign : ¬ SignCounts t.limits.maxInteger 7 :=
    not_signCounts_of_lt ((length_toString_le_iff (by decide) 10).1 (by decide)) 7
  exact ⟨rfl, hrun, hgt,
    ((integer_exact (t := t) rfl (by simp) hrun).1 hwritten).2.2.1 hgt hsign⟩

/-- A number of one digit more than can be read, against a maximum below zero of which sign and
digits are as many: the number is above the maximum, and there is no lexical error. -/
theorem integer_sign_counted :
    let digits := List.replicate (maxDigits + 1) '1'
    let t := ofText (String.ofList digits) ⟨9, -(10 ^ (maxDigits - 1) : Nat)⟩
    t.rest = digits ++ [] ∧ MaximalRun Char.isDigit digits [] ∧
      ¬ (Nat.ofDigitChars 10 digits 0 : Int) ≤ t.limits.maxInteger ∧
      t.integer = (.error (.digits (.reading 4301)), t) := by
  intro digits t
  have hrest : t.rest = digits ++ [] := by
    simp only [t, ofText, String.toList_ofList, List.append_nil]
  have hne : digits ≠ [] := by
    rw [← List.length_pos_iff, List.length_replicate]
    exact Nat.succ_pos _
  have hrun : MaximalRun Char.isDigit digits [] :=
    ⟨fun c hc ↦ by rw [List.eq_of_mem_replicate hc]; rfl, by simp⟩
  have hlength : (toString (Nat.ofDigitChars 10 digits 0)).length = maxDigits + 1 := by
    have hcount : significantDigits digits = digits := rfl
    rw [← length_significantDigits hne hrun.all, hcount, List.length_replicate]
  have hpos := maxDigits_pos
  have hle := length_toString_le_iff hpos (Nat.ofDigitChars 10 digits 0)
  have hlt := length_toString_le_iff (Nat.succ_pos maxDigits) (Nat.ofDigitChars 10 digits 0)
  have hsign : SignCounts t.limits.maxInteger (Nat.ofDigitChars 10 digits 0) :=
    ⟨Int.le_refl _, by omega, by omega⟩
  have hwritten : t.limits.maxInteger.natAbs < 10 ^ maxDigits := by
    show (-((10 ^ (maxDigits - 1) : Nat) : Int)).natAbs < _
    rw [Int.natAbs_neg, Int.natAbs_natCast]
    exact Nat.pow_lt_pow_right (by decide) (Nat.sub_lt hpos Nat.one_pos)
  refine ⟨hrest, hrun, ?_, integer_of_signCounts hrest hne hrun hwritten hsign⟩
  show ¬ _ ≤ -((10 ^ (maxDigits - 1) : Nat) : Int)
  have : 0 < 10 ^ (maxDigits - 1) := Nat.pow_pos (by decide)
  omega

end Tokenizer

end JackSyntax
