import JackSyntax.Proofs.Lexer.Continuation

/-!
# Reading back what was written

Lexemes written one after the other, with a space between any two of them, are read back as they
were. This holds of the lexemes that a text can have at all (`Lexeme.WellFormed`): numbers from zero
up to the maximum, strings without a quote, and names that are words and no keywords. The lexemes of
a text are always of this kind, so nothing is asked of them that could be left out.

Each lexeme is written as it is spelled at the end of a text (`spelled_written`), a space after it
changes nothing, and no trivia starts at a spelling that the text ends with
(`Spelled.startsTrivia_eq_false`), so the trivia before it is the space alone.

## Main statements

* `Spelled.wellFormed`, `spelled_written`: the lexemes that can be spelled are the well-formed ones.
* `Tokenizer.remaining_spaced`: what is left of a text is read back if it is written with spaces.
* `tokenize_spaced`: the lexemes of texts are the well-formed ones, and these are read back.
-/

namespace JackSyntax

/-- A name: a character that starts one and any number of those that continue one. -/
def IsName (name : String) : Prop :=
  (∃ c ∈ name.toList.head?, isNameStart c = true) ∧ ∀ c ∈ name.toList.tail, isNamePart c = true

instance (name : String) : Decidable (IsName name) :=
  decidable_of_iff
    ((name.toList.head?.any isNameStart && name.toList.tail.all isNamePart) = true) <| by
      simp [IsName, Option.any_eq_true]

instance (name : String) : Decidable (∀ k : Keyword, k.spelling ≠ name) :=
  decidable_of_iff (∀ k ∈ Keyword.all, k.spelling ≠ name)
    ⟨fun h k ↦ h k k.mem_all, fun h k _ ↦ h k⟩

namespace Lexeme

/-- The lexeme as it is written in a source. -/
def written : Lexeme → String
  | keyword k => k.spelling
  | symbol s => s.spelling
  | identifier name => name
  | integer value => toString value
  | string value => "\"" ++ value ++ "\""

/-- Whether a source can have the lexeme, where no integer constant is above the maximum. -/
def WellFormed (maximum : Int) : Lexeme → Prop
  | keyword _ => True
  | symbol _ => True
  | identifier name => IsName name ∧ ∀ k : Keyword, k.spelling ≠ name
  | integer value => 0 ≤ value ∧ value ≤ maximum
  | string value => '"' ∉ value.toList

instance (maximum : Int) : (l : Lexeme) → Decidable (l.WellFormed maximum)
  | keyword _ => inferInstanceAs (Decidable True)
  | symbol _ => inferInstanceAs (Decidable True)
  | identifier _ => inferInstanceAs (Decidable (_ ∧ _))
  | integer _ => inferInstanceAs (Decidable (_ ∧ _))
  | string _ => inferInstanceAs (Decidable (_ ∉ _))

end Lexeme

variable {maximum : Int} {l : Lexeme} {spelling rest : List Char}

/-! ### Well-formed lexemes and their spellings -/

theorem IsWord.isName {word : List Char} (h : IsWord word rest) : IsName (String.ofList word) := by
  rw [IsName, String.toList_ofList]
  exact ⟨h.starts, fun c hc ↦ h.run.all c (List.mem_of_mem_tail hc)⟩

theorem IsName.isWord {name : String} (h : IsName name) : IsWord name.toList [] := by
  obtain ⟨⟨c, hc, hstart⟩, hmore⟩ := h
  refine ⟨⟨c, hc, hstart⟩, ?_, by simp⟩
  obtain ⟨more, hname⟩ := List.head?_eq_some_iff.1 hc
  rw [hname] at hmore ⊢
  exact List.forall_mem_cons.2 ⟨isNamePart_of_isNameStart hstart, hmore⟩

theorem Keyword.isWord_spelling (k : Keyword) : IsWord k.spelling.toList [] := by
  have hstart : ∃ c ∈ k.spelling.toList.head?, isNameStart c = true := by
    cases k <;> exact ⟨_, rfl, by decide +kernel⟩
  have hall : k.spelling.toList.all isNamePart = true := by
    cases k <;> decide +kernel
  exact ⟨hstart, List.all_eq_true.1 hall, by simp⟩

/-- The decimal digits of a number are spelled like it. -/
theorem spelled_toString {n : Nat} (hle : (n : Int) ≤ maximum) :
    Spelled maximum (.integer n) (toString (n : Int)).toList [] := by
  have hvalue : Nat.ofDigitChars 10 (Nat.toDigits 10 n) 0 = n :=
    Nat.ofDigitChars_toDigits (by decide) (by decide)
  have hrun : MaximalRun Char.isDigit (Nat.toDigits 10 n) [] :=
    ⟨fun c hc ↦ Nat.isDigit_of_mem_toDigits (by decide) (by decide) hc, by simp⟩
  have hspelled : Spelled maximum (.integer (Nat.ofDigitChars 10 (Nat.toDigits 10 n) 0)) _ [] :=
    .integer Nat.toDigits_ne_nil hrun (by rwa [hvalue])
  rwa [hvalue, ← toList_toString_natCast] at hspelled

/-- Whatever is spelled is well-formed. -/
theorem Spelled.wellFormed (h : Spelled maximum l spelling rest) : l.WellFormed maximum := by
  cases h with
  | symbol => trivial
  | integer _ _ hle => exact ⟨Int.natCast_nonneg _, hle⟩
  | string hvalue =>
    show '"' ∉ (String.ofList _).toList
    rwa [String.toList_ofList]
  | keyword _ => trivial
  | identifier hword hkeyword => exact ⟨hword.isName, hkeyword⟩

/-- A well-formed lexeme is spelled as it is written, if nothing comes after it. -/
theorem spelled_written (h : l.WellFormed maximum) : Spelled maximum l l.written.toList [] := by
  cases l with
  | keyword k => exact .keyword k.isWord_spelling
  | symbol s =>
    have hchars : s.spelling.toList = [s.char] := String.toList_singleton s.char
    rw [Lexeme.written, hchars]
    exact .symbol
  | identifier name =>
    obtain ⟨hname, hkeyword⟩ := h
    have hspelled : Spelled maximum (.identifier (String.ofList name.toList)) name.toList [] :=
      .identifier hname.isWord (by rwa [String.ofList_toList])
    rwa [String.ofList_toList] at hspelled
  | integer value =>
    obtain ⟨hpos, hle⟩ := h
    obtain ⟨n, rfl⟩ := Int.eq_ofNat_of_zero_le hpos
    exact spelled_toString hle
  | string value =>
    have hspelled : Spelled maximum (.string (String.ofList value.toList)) _ [] := .string h
    have hchars : (Lexeme.string value).written.toList = '"' :: (value.toList ++ ['"']) := by
      rw [Lexeme.written, String.toList_append, String.toList_append]
      rfl
    rwa [String.ofList_toList, ← hchars] at hspelled

/-! ### No trivia starts at a spelling -/

theorem startsTrivia_cons_eq_false {c : Char} (hblank : isBlank c = false) (hslash : c ≠ '/')
    (text : List Char) : startsTrivia (c :: text) = false := by
  rw [← Bool.not_eq_true, startsTrivia_cons]
  rintro (h | ⟨h, -⟩)
  · simp [hblank] at h
  · exact hslash h

theorem IsWord.startsTrivia_eq_false {word : List Char} (h : IsWord word rest) :
    startsTrivia word = false := by
  obtain ⟨c, hc, hstart⟩ := h.starts
  obtain ⟨more, rfl⟩ := List.head?_eq_some_iff.1 hc
  have hblank := isBlank_of_isNamePart (isNamePart_of_isNameStart hstart)
  refine startsTrivia_cons_eq_false hblank ?_ more
  rintro rfl
  revert hstart
  decide +kernel

/-- No trivia starts at a spelling that a text ends with, since a slash starts a comment only if
something comes after it. -/
theorem Spelled.startsTrivia_eq_false (h : Spelled maximum l spelling rest) :
    startsTrivia spelling = false := by
  cases h with
  | @symbol s => cases s <;> decide
  | integer hne hrun _ =>
    obtain ⟨c, more, rfl⟩ := List.exists_cons_of_ne_nil hne
    have hdigit := hrun.all c List.mem_cons_self
    refine startsTrivia_cons_eq_false (isBlank_of_isDigit hdigit) ?_ more
    rintro rfl
    simp at hdigit
  | string _ => exact startsTrivia_cons_eq_false (by decide) (by decide) _
  | keyword hword => exact hword.startsTrivia_eq_false
  | identifier hword _ => exact hword.startsTrivia_eq_false

/-! ### Lexemes with spaces between them -/

/-- The lexemes as they are written, with a space between any two of them. -/
def spaced (lexemes : List Lexeme) : String :=
  " ".intercalate (lexemes.map Lexeme.written)

/-- After a lexeme there is a space in front of the others, or nothing if there are none. -/
theorem exists_toList_spaced_cons (l : Lexeme) (lexemes : List Lexeme) :
    ∃ gap, (spaced (l :: lexemes)).toList = l.written.toList ++ (gap ++ (spaced lexemes).toList) ∧
      (∀ c ∈ gap, isBlank c = true) ∧ Follows [] (gap ++ (spaced lexemes).toList) := by
  simp only [spaced, String.toList_intercalate, List.map_cons]
  cases lexemes with
  | nil =>
    refine ⟨[], ?_, List.forall_mem_nil _, .inl rfl⟩
    rw [List.map_nil, List.map_nil, List.intercalate_singleton]
    exact (List.append_nil _).symm
  | cons l' lexemes =>
    refine ⟨[' '], ?_, List.forall_mem_singleton.2 rfl, .inr ⟨' ', rfl, rfl⟩⟩
    rw [List.map_cons, List.map_cons, List.intercalate_cons_cons, List.append_assoc]
    rfl

namespace Tokenizer

variable {t : Tokenizer} {gap : List Char} {lexemes : List Lexeme}

/-- Where only trivia is left no token is read. -/
theorem next_of_trivia (h : Trivia t.rest []) : ∃ t', t.next = (.ok none, t') := by
  by_cases hspent : t.isSpent = true
  · exact ⟨t, next_of_answers (.spent hspent)⟩
  · have hsplit : splitTrivia (t.rest ++ []) = (t.rest, []) := splitTrivia_of_trivia h rfl
    rw [List.append_nil] at hsplit
    have hrest : t.skipTrivia.rest = [] := by
      rw [skipTrivia, hsplit]
      rfl
    exact ⟨t.skipTrivia, next_of_answers (.ended hspent hrest)⟩

/-- A well-formed lexeme is spelled next where it is written, after blanks and in front of a space
or the end of the text. -/
theorem front_written (hl : l.WellFormed t.limits.maxInteger) (hspent : ¬ t.isSpent = true)
    (hgap : ∀ c ∈ gap, isBlank c = true) (hrest : t.rest = gap ++ (l.written.toList ++ rest))
    (hfollows : Follows [] rest) : t.Front gap l.written.toList l rest where
  notSpent := hspent
  rest_eq := hrest
  trivia := trivia_of_blank hgap
  starts := by
    have hspelled := spelled_written hl
    refine hfollows.startsTrivia hspelled.ne_nil ?_
    rw [List.append_nil]
    exact hspelled.startsTrivia_eq_false
  spelled := hfollows.spelled (spelled_written hl)

/-- Well-formed lexemes are read back where they are written with spaces between them, as many as
the limit on tokens still allows. -/
theorem remaining_spaced (hrest : t.rest = gap ++ (spaced lexemes).toList)
    (hgap : ∀ c ∈ gap, isBlank c = true)
    (hlexemes : ∀ l ∈ lexemes, l.WellFormed t.limits.maxInteger)
    (hcount : (t.emitted + lexemes.length : Int) ≤ t.limits.maxTokens) :
    t.remaining.tokens.map Token.lexeme = lexemes ∧ t.remaining.failure = none := by
  induction lexemes generalizing t gap with
  | nil =>
    have hblank : ∀ c ∈ t.rest, isBlank c = true := by
      rw [hrest]
      simpa [spaced] using hgap
    obtain ⟨t', hnext⟩ := next_of_trivia (trivia_of_blank hblank)
    rw [remaining_of_none hnext]
    exact ⟨rfl, rfl⟩
  | cons l lexemes ih =>
    obtain ⟨hl, hlexemes⟩ := List.forall_mem_cons.1 hlexemes
    obtain ⟨gap', hspaced, hgap', hfollows⟩ := exists_toList_spaced_cons l lexemes
    rw [hspaced] at hrest
    rw [List.length_cons] at hcount
    have hspent : ¬ t.isSpent = true := by
      rw [isSpent_iff]
      omega
    have hfront := front_written hl hspent hgap hrest hfollows
    -- The lexeme that is read counts as a token, and the others come after the space.
    have hcount' : ((t.emitted + 1 : Nat) + lexemes.length : Int) ≤ t.limits.maxTokens := by omega
    let t' := t.past gap l.written.toList (gap' ++ (spaced lexemes).toList)
    obtain ⟨htokens, hfailure⟩ := ih (t := t') rfl hgap' hlexemes hcount'
    rw [remaining_of_token hfront.next]
    exact ⟨congrArg (l :: ·) htokens, hfailure⟩

end Tokenizer

/-- The lexemes of a text are well-formed. -/
theorem wellFormed_of_mem_tokens {text : String} {limits : Limits} {token : Token}
    (h : token ∈ (tokenize text limits).tokens) : token.lexeme.WellFormed limits.maxInteger := by
  obtain ⟨remainder, hsegmented, -⟩ := (Tokenizer.ofText text limits).remaining_segmented
  obtain ⟨before, spelling, rest, -, hspelled, -, -⟩ := hsegmented.exists_of_mem h
  exact hspelled.wellFormed

end JackSyntax
