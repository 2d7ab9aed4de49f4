import JackSyntax.Lexer.Scan
import JackSyntax.Unicode.Blank

/-!
# How lexemes are spelled

The lexical grammar without a scanner: `Spelled` says which characters write a lexeme when certain
others follow. What follows matters since numbers and words are runs that end only where they have
to (`MaximalRun`). The scanner finds a spelling whenever there is one (`scanLexeme_eq_ok_iff`), so
where it fails nothing is spelled.

An integer constant is refused for its value. The scanner looks at the number of its digits first,
which comes to the same (`exceeds_iff`): a number with more digits than the maximum is larger.
-/

namespace JackSyntax

/-- Characters with the property, which goes no further into the rest of the text. -/
structure MaximalRun (p : Char → Bool) (run rest : List Char) : Prop where
  /-- The run consists of characters with the property. -/
  all : ∀ c ∈ run, p c = true
  /-- The character after it is none. -/
  stops : ∀ c ∈ rest.head?, p c = false

/-- A word: a character that starts a name and as many as continue it. -/
structure IsWord (word rest : List Char) : Prop where
  /-- The first character starts a name. -/
  starts : ∃ c ∈ word.head?, isNameStart c = true
  /-- The word goes on as far as a name can. -/
  run : MaximalRun isNamePart word rest

/-- The characters that write the lexeme, in front of the rest of a text. -/
inductive Spelled (maximum : Int) : Lexeme → List Char → List Char → Prop
  /-- A symbol is one character. -/
  | symbol {s : Symbol} {rest : List Char} : Spelled maximum (.symbol s) [s.char] rest
  /-- A number is a run of decimal digits, of which the value is not above the maximum. -/
  | integer {digits rest : List Char} (hne : digits ≠ [])
    (hrun : MaximalRun Char.isDigit digits rest) (hle : Nat.ofDigitChars 10 digits 0 ≤ maximum) :
    Spelled maximum (.integer (Nat.ofDigitChars 10 digits 0)) digits rest
  /-- A text stands in quotes and has none itself. -/
  | string {value rest : List Char} (hvalue : '"' ∉ value) :
    Spelled maximum (.string (String.ofList value)) ('"' :: (value ++ ['"'])) rest
  /-- A keyword is a word with its spelling. -/
  | keyword {k : Keyword} {rest : List Char} (hword : IsWord k.spelling.toList rest) :
    Spelled maximum (.keyword k) k.spelling.toList rest
  /-- A name is any other word. -/
  | identifier {word rest : List Char} (hword : IsWord word rest)
    (hkeyword : ∀ k : Keyword, k.spelling ≠ String.ofList word) :
    Spelled maximum (.identifier (String.ofList word)) word rest

/-! ### Runs -/

section Runs

variable {p : Char → Bool} {run rest : List Char}

/-- The longest start of a text with the property is such a run. -/
theorem maximalRun_takeWhile (p : Char → Bool) (text : List Char) :
    MaximalRun p (text.takeWhile p) (text.dropWhile p) where
  all := List.all_eq_true.1 List.all_takeWhile
  stops := by
    intro c hc
    have hnot := List.head?_dropWhile_not p text
    rw [Option.mem_def.1 hc] at hnot
    simpa using hnot

/-- A run that ends only where it has to is the longest start of its text. -/
theorem MaximalRun.takeWhile (h : MaximalRun p run rest) : (run ++ rest).takeWhile p = run := by
  rw [List.takeWhile_append_of_pos h.all]
  cases rest with
  | nil => simp
  | cons c rest => simp [h.stops c rfl]

/-- After the longest start comes what follows the run. -/
theorem MaximalRun.dropWhile (h : MaximalRun p run rest) : (run ++ rest).dropWhile p = rest := by
  rw [List.dropWhile_append_of_pos h.all]
  cases rest with
  | nil => rfl
  | cons c rest => simp [h.stops c rfl]

end Runs

/-! ### The classes of first characters -/

theorem symbol_ofChar?_char (s : Symbol) : Symbol.ofChar? s.char = some s := by
  cases s <;> decide

theorem char_of_ofChar? {c : Char} {s : Symbol} (h : Symbol.ofChar? c = some s) : s.char = c := by
  simpa using List.find?_some h

/-- No symbol is a digit. -/
theorem isDigit_char (s : Symbol) : s.char.isDigit = false := by
  cases s <;> decide

/-- No symbol starts a name. -/
theorem isNameStart_char (s : Symbol) : isNameStart s.char = false := by
  cases s <;> decide +kernel

/-- No decimal digit starts a name. -/
theorem isNameStart_of_isDigit {c : Char} (h : c.isDigit = true) : isNameStart c = false := by
  have hletter : ∀ n < 58, letterRanges.contains n = false := by decide +kernel
  have hlt : c.toNat < 58 := by
    simp only [Char.isDigit, Bool.and_eq_true, decide_eq_true_eq] at h
    exact Nat.lt_succ_of_le h.2
  have hne : c ≠ '_' := by
    rintro rfl
    simp at hlt
  simp [isNameStart, isLetter, hletter _ hlt, hne]

theorem isNamePart_of_isNameStart {c : Char} (h : isNameStart c = true) : isNamePart c = true := by
  simp only [isNameStart, Bool.or_eq_true] at h
  simp only [isNamePart, Bool.or_eq_true]
  exact .inl h

/-- A decimal digit continues a name. -/
theorem isNamePart_of_isDigit {c : Char} (h : c.isDigit = true) : isNamePart c = true := by
  have hnumeric : ∀ n < 58, 48 ≤ n → numericRanges.contains n = true := by decide
  simp only [Char.isDigit, Bool.and_eq_true, decide_eq_true_eq] at h
  have hc : isNumeric c = true := hnumeric c.toNat (Nat.lt_succ_of_le h.2) h.1
  rw [isNamePart, hc, Bool.or_true]

/-- No blank character continues a name. -/
theorem isBlank_of_isNamePart {c : Char} (h : isNamePart c = true) : isBlank c = false := by
  have hranges : ∀ r ∈ blankRanges, ∀ n ∈ List.range' r.1 (r.2 + 1 - r.1),
      n ≠ '_'.toNat ∧ letterRanges.contains n = false ∧ numericRanges.contains n = false := by
    decide +kernel
  rw [← Bool.not_eq_true, isBlank, CodeRanges.contains_iff (by decide)]
  intro hblank
  obtain ⟨r, hr, hle, hge⟩ := hblank
  have hmem : c.toNat ∈ List.range' r.1 (r.2 + 1 - r.1) := List.mem_range'_1.2 (by omega)
  obtain ⟨hne, hletter, hnumeric⟩ := hranges r hr c.toNat hmem
  have hne : c ≠ '_' := fun hc ↦ hne (congrArg Char.toNat hc)
  simp [isNamePart, isLetter, isNumeric, hletter, hnumeric, hne] at h

/-- No digit is blank. -/
theorem isBlank_of_isDigit {c : Char} (h : c.isDigit = true) : isBlank c = false :=
  isBlank_of_isNamePart (isNamePart_of_isDigit h)

/-- The first character of any other lexeme is no symbol. -/
theorem ofChar?_eq_none {c : Char} (h : c.isDigit = true ∨ c = '"' ∨ isNameStart c = true) :
    Symbol.ofChar? c = none := by
  cases hs : Symbol.ofChar? c with
  | none => rfl
  | some s =>
    obtain rfl := char_of_ofChar? hs
    rcases h with h | h | h
    · simp [isDigit_char] at h
    · cases s <;> simp [Symbol.char] at h
    · simp [isNameStart_char] at h

/-! ### Numbers -/

/-- An integer is written as its digits, with a sign in front if it is below zero. -/
theorem toList_toString (n : Int) :
    (toString n).toList = (if n < 0 then ['-'] else []) ++ Nat.toDigits 10 n.natAbs := by
  rw [Int.toString_eq_repr, Int.repr_eq_if]
  by_cases hneg : n < 0
  · have habs : (-n).toNat = n.natAbs := by omega
    rw [if_neg (Int.not_le.2 hneg), if_pos hneg, habs, String.toList_append, Nat.toList_repr]
    rfl
  · have habs : n.toNat = n.natAbs := by omega
    rw [if_pos (Int.not_lt.1 hneg), if_neg hneg, habs, Nat.toList_repr, List.nil_append]

/-- A number that is not below zero is written without a sign. -/
theorem toList_toString_natCast (n : Nat) :
    (toString (n : Int)).toList = Nat.toDigits 10 n := by
  rw [toList_toString, if_neg (Int.not_lt.2 (Int.natCast_nonneg n)), Int.natAbs_natCast,
    List.nil_append]

/-- No digit is a sign, so an integer is determined by how it is written. -/
theorem eq_of_toString {n n' : Int} (h : toString n = toString n') : n = n' := by
  have hdigits := congrArg String.toList h
  rw [toList_toString, toList_toString] at hdigits
  have hminus : ∀ m : Nat, '-' ∉ Nat.toDigits 10 m := fun m hmem ↦
    absurd (Nat.isDigit_of_mem_toDigits (by decide) (by decide) hmem) (by decide)
  have habs : Nat.toDigits 10 n.natAbs = Nat.toDigits 10 n'.natAbs → n.natAbs = n'.natAbs :=
    fun h ↦ by simpa [Nat.ofDigitChars_ten_toDigits] using congrArg (Nat.ofDigitChars 10 · 0) h
  by_cases hneg : n < 0 <;> by_cases hneg' : n' < 0
  · rw [if_pos hneg, if_pos hneg'] at hdigits
    have := habs (List.append_cancel_left hdigits)
    omega
  · rw [if_pos hneg, if_neg hneg', List.nil_append] at hdigits
    refine absurd ?_ (hminus n'.natAbs)
    rw [← hdigits]
    exact List.mem_cons_self
  · rw [if_neg hneg, if_pos hneg', List.nil_append] at hdigits
    refine absurd ?_ (hminus n.natAbs)
    rw [hdigits]
    exact List.mem_cons_self
  · rw [if_neg hneg, if_neg hneg'] at hdigits
    have := habs (List.append_cancel_left hdigits)
    omega

/-- Zeros in front do not count. -/
theorem decimalValue_dropWhile (digits : List Char) :
    decimalValue (digits.dropWhile (· == '0')) = Nat.ofDigitChars 10 digits 0 := by
  induction digits with
  | nil => rfl
  | cons c digits ih =>
    by_cases hc : c = '0'
    · subst hc
      rw [List.dropWhile_cons_of_pos rfl, ih]
      rfl
    · rw [List.dropWhile_cons_of_neg (by simpa using hc)]
      rfl

/-- The digits that count write the same number. -/
theorem decimalValue_significantDigits (digits : List Char) :
    decimalValue (significantDigits digits) = Nat.ofDigitChars 10 digits 0 := by
  have hvalue := decimalValue_dropWhile digits
  unfold significantDigits
  split
  · rename_i hnil
    rw [hnil] at hvalue
    exact hvalue
  · exact hvalue

/-- A digit other than zero counts at least one. -/
theorem one_le_digit {c : Char} (hc : c.isDigit = true) (hzero : c ≠ '0') :
    1 ≤ c.toNat - '0'.toNat := by
  have hge : '0'.toNat ≤ c.toNat := by
    simp only [Char.isDigit, Bool.and_eq_true, decide_eq_true_eq] at hc
    exact hc.1
  have hne : c.toNat ≠ '0'.toNat := fun h ↦ hzero (Char.toNat_inj.1 h)
  omega

/-- Where a number has more significant digits than another one, the first of them is not zero, so
the number is larger. -/
theorem lt_of_length_lt {digits : List Char} (hdigits : ∀ c ∈ digits, c.isDigit = true) {n : Nat}
    (hlength : n.repr.length < (significantDigits digits).length) :
    n < Nat.ofDigitChars 10 digits 0 := by
  have hpos : 0 < n.repr.length := Nat.length_repr_pos
  rw [← decimalValue_significantDigits]
  unfold significantDigits at hlength ⊢
  split at hlength
  · rw [List.length_singleton] at hlength
    omega
  · cases hsplit : digits.dropWhile (· == '0') with
    | nil =>
      simp only [hsplit, List.length_nil] at hlength
      omega
    | cons c significant =>
      have hc : c.isDigit = true :=
        hdigits c (List.dropWhile_subset _ (hsplit ▸ List.mem_cons_self))
      have hzero : c ≠ '0' := by
        have hnot := List.head?_dropWhile_not (· == '0') digits
        rw [hsplit] at hnot
        simpa using hnot
      have hone : 1 ≤ 10 * 0 + (c.toNat - '0'.toNat) := by
        rw [Nat.mul_zero, Nat.zero_add]
        exact one_le_digit hc hzero
      have hle : n.repr.length ≤ significant.length := by
        rw [hsplit, List.length_cons] at hlength
        omega
      calc n < 10 ^ n.repr.length := (Nat.length_repr_le_iff hpos).1 (Nat.le_refl _)
        _ ≤ 10 ^ significant.length := Nat.pow_le_pow_right (by decide) hle
        _ = 10 ^ significant.length * 1 := (Nat.mul_one _).symm
        _ ≤ 10 ^ significant.length * (10 * 0 + (c.toNat - '0'.toNat)) :=
          Nat.mul_le_mul_left _ hone
        _ ≤ Nat.ofDigitChars 10 significant (10 * 0 + (c.toNat - '0'.toNat)) := by
          rw [Nat.ofDigitChars_eq_ofDigitChars_zero]
          exact Nat.le_add_right _ _

/-- A number with more significant digits than the maximum is above it. -/
theorem exceeds_iff {digits : List Char} (hdigits : ∀ c ∈ digits, c.isDigit = true)
    (maximum : Int) :
    (significantDigits digits).length > (toString maximum).length ∨
        (decimalValue (significantDigits digits) : Int) > maximum ↔
      ¬ (Nat.ofDigitChars 10 digits 0 : Int) ≤ maximum := by
  rw [decimalValue_significantDigits, Int.not_le, or_iff_right_of_imp]
  intro hlength
  by_cases hpos : 0 ≤ maximum
  · obtain ⟨n, rfl⟩ := Int.eq_ofNat_of_zero_le hpos
    rw [Int.toString_eq_repr, Int.repr_eq_if, if_pos hpos, Int.toNat_natCast] at hlength
    exact Int.ofNat_lt.2 (lt_of_length_lt hdigits hlength)
  · -- No number is below zero, however it is written.
    show maximum < _
    omega

/-! ### Words -/

theorem ofSpelling?_spelling (k : Keyword) : Keyword.ofSpelling? k.spelling = some k := by
  cases k <;> rfl

/-- A keyword is determined by how it is spelled. -/
theorem Keyword.spelling_inj {k k' : Keyword} (h : k.spelling = k'.spelling) : k = k' := by
  have hread : some k = some k' := by
    rw [← ofSpelling?_spelling k, h, ofSpelling?_spelling]
  exact Option.some.inj hread

/-- A symbol is determined by how it is spelled. -/
theorem Symbol.spelling_inj {s s' : Symbol} (h : s.spelling = s'.spelling) : s = s' := by
  have hchar : s.char = s'.char := by simpa [spelling, ← String.toList_inj] using h
  have hread : some s = some s' := by
    rw [← symbol_ofChar?_char s, hchar, symbol_ofChar?_char]
  exact Option.some.inj hread

/-- A word is a keyword if one is spelled so, and a name if none is. -/
theorem ofWord_cases (word : String) :
    (∃ k : Keyword, k.spelling = word ∧ Lexeme.ofWord word = .keyword k) ∨
      (∀ k : Keyword, k.spelling ≠ word) ∧ Lexeme.ofWord word = .identifier word := by
  unfold Lexeme.ofWord
  split
  · rename_i k hk
    have hspelling : k.spelling = word := by simpa using List.find?_some hk
    exact .inl ⟨k, hspelling, rfl⟩
  · rename_i hnone
    refine .inr ⟨?_, rfl⟩
    rintro k rfl
    simp [ofSpelling?_spelling] at hnone

/-- The word that a character starts in a text. -/
theorem isWord_takeWhile {c : Char} (hc : isNameStart c = true) (text : List Char) :
    IsWord ((c :: text).takeWhile isNamePart) ((c :: text).dropWhile isNamePart) where
  starts := by
    rw [List.takeWhile_cons_of_pos (isNamePart_of_isNameStart hc)]
    exact ⟨c, rfl, hc⟩
  run := maximalRun_takeWhile _ _

/-- A word is read as far as it goes. -/
theorem scanWord_of_isNameStart {c : Char} (hc : isNameStart c = true) (text : List Char) :
    scanWord (c :: text) = .ok ⟨.ofWord (String.ofList ((c :: text).takeWhile isNamePart)),
      (c :: text).takeWhile isNamePart, (c :: text).dropWhile isNamePart⟩ := by
  have hdigit : c.isDigit = false := by
    cases h : c.isDigit with
    | false => rfl
    | true => simp [isNameStart_of_isDigit h] at hc
  simp only [scanWord, hdigit, hc, Bool.false_eq_true, if_false, if_true]

/-! ### The scanner -/

variable {maximum : Int} {c : Char} {text : List Char} {scan : Scan}

/-- What is scanned as a number is spelled so. -/
theorem spelled_of_scanInteger (hc : c.isDigit = true)
    (h : scanInteger maximum (c :: text) = .ok scan) :
    Spelled maximum scan.lexeme scan.taken scan.rest := by
  have hrun := maximalRun_takeWhile Char.isDigit (c :: text)
  simp only [scanInteger, exceeds_iff hrun.all] at h
  split at h
  · simp at h
  · rename_i hle
    obtain rfl := Except.ok.inj h
    rw [decimalValue_significantDigits]
    refine .integer ?_ hrun (Decidable.not_not.1 hle)
    simp [hc]

/-- What is scanned as a string is spelled so, with its opening quote. -/
theorem spelled_of_scanString (h : scanString text = .ok scan) :
    Spelled maximum scan.lexeme scan.taken scan.rest := by
  have hrun := maximalRun_takeWhile (· != '"') text
  simp only [scanString] at h
  split at h
  · simp at h
  · rename_i quote rest hrest
    obtain rfl := Except.ok.inj h
    rw [hrest] at hrun
    have hquote : quote = '"' := by simpa using hrun.stops quote rfl
    subst hquote
    exact .string fun hmem ↦ by simpa using hrun.all _ hmem

/-- What is scanned as a word is spelled so. -/
theorem spelled_of_scanWord (hc : isNameStart c = true) (h : scanWord (c :: text) = .ok scan) :
    Spelled maximum scan.lexeme scan.taken scan.rest := by
  have hword := isWord_takeWhile hc text
  rw [scanWord_of_isNameStart hc] at h
  obtain rfl := Except.ok.inj h
  generalize (c :: text).takeWhile isNamePart = word at hword ⊢
  rcases ofWord_cases (String.ofList word) with ⟨k, hk, hlexeme⟩ | ⟨hk, hlexeme⟩
  · have hchars : k.spelling.toList = word := by rw [hk, String.toList_ofList]
    rw [hlexeme, ← hchars]
    rw [← hchars] at hword
    exact .keyword hword
  · rw [hlexeme]
    exact .identifier hword hk

/-- What the scanner reads is spelled there. -/
theorem spelled_of_scanLexeme (h : scanLexeme maximum c text = .ok scan) :
    Spelled maximum scan.lexeme scan.taken scan.rest := by
  unfold scanLexeme at h
  split at h
  · rename_i s hs
    obtain rfl := char_of_ofChar? hs
    obtain rfl := Except.ok.inj h
    exact .symbol
  · split at h
    · rename_i hc
      exact spelled_of_scanInteger hc h
    · split at h
      · exact spelled_of_scanString h
      · split at h
        · rename_i hc
          exact spelled_of_scanWord hc h
        · simp at h

/-- A digit starts a number. -/
theorem scanLexeme_of_isDigit (hc : c.isDigit = true) :
    scanLexeme maximum c text = scanInteger maximum (c :: text) := by
  rw [scanLexeme, ofChar?_eq_none (.inl hc)]
  exact if_pos hc

theorem scanLexeme_of_quote : scanLexeme maximum '"' text = scanString text := rfl

/-- A character that may start a name starts a word. -/
theorem scanLexeme_of_isNameStart (hc : isNameStart c = true) :
    scanLexeme maximum c text = .ok ⟨.ofWord (String.ofList ((c :: text).takeWhile isNamePart)),
      (c :: text).takeWhile isNamePart, (c :: text).dropWhile isNamePart⟩ := by
  have hdigit : ¬ c.isDigit = true := fun h ↦ by simp [isNameStart_of_isDigit h] at hc
  have hquote : c ≠ '"' := by
    rintro rfl
    revert hc
    decide +kernel
  rw [scanLexeme, ofChar?_eq_none (.inr (.inr hc)), ← scanWord_of_isNameStart hc]
  simp only [if_neg hdigit, if_neg hquote, if_pos hc]

/-- A word in front of what it does not go on into is scanned whole. -/
theorem scanLexeme_of_isWord {word rest : List Char} (hword : IsWord word rest)
    (htext : word ++ rest = c :: text) :
    scanLexeme maximum c text = .ok ⟨.ofWord (String.ofList word), word, rest⟩ := by
  obtain ⟨c', hc', hstart⟩ := hword.starts
  obtain ⟨word', rfl⟩ := List.head?_eq_some_iff.1 hc'
  obtain ⟨rfl, -⟩ := List.cons.inj htext
  rw [scanLexeme_of_isNameStart hstart, ← htext, hword.run.takeWhile, hword.run.dropWhile]

/-- What is spelled somewhere, the scanner reads there. -/
theorem scanLexeme_of_spelled {l : Lexeme} {spelling rest : List Char}
    (h : Spelled maximum l spelling rest) (htext : spelling ++ rest = c :: text) :
    scanLexeme maximum c text = .ok ⟨l, spelling, rest⟩ := by
  cases h with
  | @symbol s rest =>
    rw [List.singleton_append] at htext
    obtain ⟨rfl, rfl⟩ := List.cons.inj htext
    rw [scanLexeme, symbol_ofChar?_char]
  | @integer digits rest hne hrun hle =>
    obtain ⟨c', digits', rfl⟩ := List.exists_cons_of_ne_nil hne
    obtain ⟨rfl, -⟩ := List.cons.inj htext
    rw [scanLexeme_of_isDigit (hrun.all _ List.mem_cons_self), ← htext]
    simp only [scanInteger, hrun.takeWhile, hrun.dropWhile]
    rw [if_neg fun hexceeds ↦ (exceeds_iff hrun.all maximum).1 hexceeds hle,
      decimalValue_significantDigits]
  | @string value rest hvalue =>
    rw [List.cons_append, List.append_assoc, List.singleton_append] at htext
    obtain ⟨rfl, rfl⟩ := List.cons.inj htext
    have hrun : MaximalRun (· != '"') value ('"' :: rest) :=
      ⟨fun c hc ↦ by simpa using ne_of_mem_of_not_mem hc hvalue, by simp⟩
    rw [scanLexeme_of_quote]
    simp only [scanString, hrun.takeWhile, hrun.dropWhile, List.cons_append]
  | @keyword k rest hword =>
    rcases ofWord_cases k.spelling with ⟨k', hk', hlexeme⟩ | ⟨hk, -⟩
    · have hsame : some k' = some k := by rw [← ofSpelling?_spelling, hk', ofSpelling?_spelling]
      obtain rfl := Option.some.inj hsame
      rw [scanLexeme_of_isWord hword htext, String.ofList_toList, hlexeme]
    · exact absurd rfl (hk k)
  | identifier hword hkeyword =>
    rcases ofWord_cases _ with ⟨k, hk, -⟩ | ⟨-, hlexeme⟩
    · exact absurd hk (hkeyword k)
    · rw [scanLexeme_of_isWord hword htext, hlexeme]

/-- The scanner reads what is spelled, and fails where nothing is. -/
theorem scanLexeme_eq_ok_iff :
    scanLexeme maximum c text = .ok scan ↔
      Spelled maximum scan.lexeme scan.taken scan.rest ∧ scan.taken ++ scan.rest = c :: text :=
  ⟨fun h ↦ ⟨spelled_of_scanLexeme h, (scanLexeme_divides h).taken_append_rest⟩,
    fun ⟨h, htext⟩ ↦ scanLexeme_of_spelled h htext⟩

end JackSyntax
