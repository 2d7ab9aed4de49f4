import JackSyntax.Proofs.Lexer.Segmentation

/-!
# What comes after a token does not change it

A lexer that looks for a line feed, for `*/` or for a quote may run over the whole text, but a token
that it has found is found again whatever comes later, as long as a blank character keeps the token
apart from it (`Follows`). The gap in front of a token is not the last thing in the text, so every
comment in it is closed (`Trivia.of_ne_nil`). A blank character continues no number and no word, and
it makes no comment of a slash before it.

## Main statements

* `Tokenizer.Front.next`: what is spelled next is read next.
* `take_tokens_cutAfter`: the tokens up to one, when something else comes after it.
-/

namespace JackSyntax

/-- The second text begins as the first one does, or with a blank character. -/
def Follows (rest rest' : List Char) : Prop :=
  rest'.head? = rest.head? ∨ ∃ c ∈ rest'.head?, isBlank c = true

variable {rest rest' : List Char}

/-- A text that is replaced from some place on by a blank character and anything else. -/
theorem follows_append {c : Char} (hc : isBlank c = true) (front back more : List Char) :
    Follows (front ++ back) (front ++ c :: more) := by
  cases front with
  | nil => exact .inr ⟨c, rfl, hc⟩
  | cons c front => exact .inl rfl

/-! ### Trivia -/

theorem TriviaUnit.of_ne_nil {unit : List Char} (h : TriviaUnit unit rest) (hne : rest ≠ []) :
    TriviaUnit unit rest' := by
  cases h with
  | blank h => exact .blank h
  | line h => exact .line h
  | lastLine h => exact absurd rfl hne
  | block h => exact .block h
  | lastBlock h => exact absurd rfl hne

/-- Trivia in front of some text is trivia in front of any. -/
theorem Trivia.of_ne_nil {gap : List Char} (h : Trivia gap rest) (hne : rest ≠ []) :
    Trivia gap rest' := by
  induction h with
  | nil => exact .nil
  | cons hunit _ ih =>
    exact .cons (hunit.of_ne_nil (List.append_ne_nil_of_right_ne_nil _ hne)) (ih hne)

/-- Trivia starts with a blank character, or with a slash before another one or a star. -/
theorem startsTrivia_cons (c : Char) (text : List Char) :
    startsTrivia (c :: text) = true ↔
      isBlank c = true ∨ c = '/' ∧ (text.head? = some '/' ∨ text.head? = some '*') := by
  unfold startsTrivia
  split
  · simp_all
  · simp_all
  · rename_i hline hblock heq
    obtain ⟨rfl, rfl⟩ := List.cons.inj heq
    have hnone : ¬ (c = '/' ∧ (text.head? = some '/' ∨ text.head? = some '*')) := by
      rintro ⟨rfl, h | h⟩
      · obtain ⟨more, rfl⟩ := List.head?_eq_some_iff.1 h
        exact hline more rfl rfl
      · obtain ⟨more, rfl⟩ := List.head?_eq_some_iff.1 h
        exact hblock more rfl rfl
    rw [or_iff_left hnone]
  · simp_all

/-- No trivia starts at the spelling if a blank character comes after it. -/
theorem Follows.startsTrivia {spelling : List Char} (h : Follows rest rest') (hne : spelling ≠ [])
    (hstarts : startsTrivia (spelling ++ rest) = false) :
    startsTrivia (spelling ++ rest') = false := by
  obtain ⟨c, more, rfl⟩ := List.exists_cons_of_ne_nil hne
  rw [← Bool.not_eq_true] at hstarts ⊢
  rw [List.cons_append, startsTrivia_cons] at hstarts ⊢
  cases more with
  | cons c' more => exact hstarts
  | nil =>
    rcases h with h | ⟨c', hc', hblank'⟩
    · rwa [List.nil_append, h]
    · rw [List.nil_append, Option.mem_def.1 hc']
      rintro (hblank | ⟨-, h | h⟩)
      · exact hstarts (.inl hblank)
      · obtain rfl := Option.some.inj h
        exact absurd hblank' (by decide)
      · obtain rfl := Option.some.inj h
        exact absurd hblank' (by decide)

/-! ### Lexemes -/

section Spelling

variable {maximum : Int} {p : Char → Bool} {run spelling : List Char} {l : Lexeme}

theorem Follows.maximalRun (h : Follows rest rest') (hp : ∀ c, p c = true → isBlank c = false)
    (hrun : MaximalRun p run rest) : MaximalRun p run rest' where
  all := hrun.all
  stops := by
    intro c hc
    rcases h with h | ⟨c', hc', hblank⟩
    · exact hrun.stops c (h ▸ hc)
    · obtain rfl := Option.some.inj (hc.symm.trans hc')
      rw [← Bool.not_eq_true]
      exact fun hrun ↦ Bool.eq_false_iff.1 (hp c hrun) hblank

theorem Follows.isWord (h : Follows rest rest') (hword : IsWord run rest) : IsWord run rest' where
  starts := hword.starts
  run := h.maximalRun (fun _ ↦ isBlank_of_isNamePart) hword.run

/-- A lexeme is spelled as it is if a blank character comes after it. -/
theorem Follows.spelled (h : Follows rest rest') (hspelled : Spelled maximum l spelling rest) :
    Spelled maximum l spelling rest' := by
  cases hspelled with
  | symbol => exact .symbol
  | integer hne hrun hle =>
    exact .integer hne (h.maximalRun (fun _ ↦ isBlank_of_isDigit) hrun) hle
  | string hvalue => exact .string hvalue
  | keyword hword => exact .keyword (h.isWord hword)
  | identifier hword hkeyword => exact .identifier (h.isWord hword) hkeyword

end Spelling

/-! ### Tokens -/

namespace Tokenizer

variable {t t' : Tokenizer} {gap spelling : List Char} {l : Lexeme} {token : Token}

/-- What is spelled next is read next. -/
theorem Front.next (h : t.Front gap spelling l rest) :
    t.next = (.ok (some (t.placed gap spelling l)), t.past gap spelling rest) := by
  have hsplit : splitTrivia t.rest = (gap, spelling ++ rest) := by
    rw [h.rest_eq]
    exact splitTrivia_of_trivia h.trivia h.starts
  have hskip : t.skipTrivia = t.advance (gap, spelling ++ rest) := by rw [skipTrivia, hsplit]
  obtain ⟨c, more, hmore⟩ := List.exists_cons_of_ne_nil h.spelled.ne_nil
  have htext : spelling ++ rest = c :: (more ++ rest) := by rw [hmore, List.cons_append]
  have hrest : t.skipTrivia.rest = c :: (more ++ rest) := by
    rw [hskip, ← htext]
    rfl
  have hscan := scanLexeme_of_spelled h.spelled htext
  have hanswers := Answers.token h.notSpent hrest hscan
  rw [next_of_answers hanswers, hskip]
  rfl

/-- A lexeme is spelled next whatever comes after a blank character after it. -/
theorem Front.replace (h : t.Front gap spelling l rest) (hrest : Follows rest rest') :
    { t with rest := gap ++ (spelling ++ rest') }.Front gap spelling l rest' where
  notSpent := h.notSpent
  rest_eq := rfl
  trivia := h.trivia.of_ne_nil (List.append_ne_nil_of_left_ne_nil h.spelled.ne_nil _)
  starts := hrest.startsTrivia h.spelled.ne_nil h.starts
  spelled := hrest.spelled h.spelled

theorem le_stop_of_mem (h : token ∈ t.remaining.tokens) :
    (t.cursor.offset : Int) ≤ token.span.stop.offset := by
  obtain ⟨remainder, hsegmented, -⟩ := t.remaining_segmented
  obtain ⟨before, spelling, rest, -, -, -, hstop⟩ := hsegmented.exists_of_mem h
  omega

/-- A place that is not before the end of the next token is past the gap and the spelling. -/
theorem Front.exists_split (h : t.Front gap spelling l rest) {front back : List Char}
    (hrest : t.rest = front ++ back) (hle : gap.length + spelling.length ≤ front.length) :
    ∃ between, front = gap ++ (spelling ++ between) ∧ rest = between ++ back := by
  have htext : gap ++ spelling ++ rest = front ++ back := by
    rw [List.append_assoc, ← h.rest_eq, hrest]
  have hfront : gap ++ spelling <+: front := by
    refine List.prefix_of_prefix_length_le ⟨rest, htext⟩ ⟨back, rfl⟩ ?_
    rwa [List.length_append]
  obtain ⟨between, rfl⟩ := hfront
  rw [List.append_assoc (gap ++ spelling)] at htext
  exact ⟨between, List.append_assoc .., List.append_cancel_left htext⟩

/-- The tokens up to one are the same whatever comes after a space after it. -/
theorem take_remaining_replace (t : Tokenizer) {front back : List Char} (more : List Char)
    (hrest : t.rest = front ++ back) {n : Nat} (htoken : t.remaining.tokens[n]? = some token)
    (hstop : token.span.stop.offset = t.cursor.offset + front.length) :
    ({ t with rest := front ++ ' ' :: more } : Tokenizer).remaining.tokens.take (n + 1) =
      t.remaining.tokens.take (n + 1) := by
  induction t using remaining.induct generalizing front n with
  | case1 t first t' h ih =>
    obtain ⟨gap, spelling, l, rest, hfront, rfl, rfl⟩ := exists_front h
    have hoffset := t.offset_past gap spelling rest
    rw [remaining_of_token h] at htoken ⊢
    -- The token is the next one or comes after it, so that the next one ends before the space.
    have hle : gap.length + spelling.length ≤ front.length := by
      have hpast : ((t.past gap spelling rest).cursor.offset : Int) ≤ token.span.stop.offset := by
        cases n with
        | zero =>
          obtain rfl := Option.some.inj htoken
          exact Int.le_refl _
        | succ n => exact le_stop_of_mem (List.mem_of_getElem? htoken)
      omega
    obtain ⟨between, rfl, rfl⟩ := hfront.exists_split hrest hle
    have hspace : isBlank ' ' = true := rfl
    have hnext := (hfront.replace (follows_append hspace between back more)).next
    have hsame : gap ++ (spelling ++ between) ++ ' ' :: more =
        gap ++ (spelling ++ (between ++ ' ' :: more)) := by simp only [List.append_assoc]
    rw [hsame, remaining_of_token hnext]
    simp only [Reading.cons, List.take_succ_cons]
    cases n with
    | zero => rfl
    | succ n =>
      have hbetween : token.span.stop.offset =
          (t.past gap spelling (between ++ back)).cursor.offset + between.length := by
        rw [hstop, hoffset]
        simp only [List.length_append]
        omega
      exact congrArg (t.placed gap spelling l :: ·) (ih rfl htoken hbetween)
  | case2 t t' h => simp [remaining_of_none h] at htoken
  | case3 t e t' h => simp [remaining_of_error h] at htoken

end Tokenizer

/-- The text up to the place, and then a space and more text. -/
def cutAfter (text : String) (offset : Int) (more : String) : String :=
  String.ofList (text.toList.take offset.toNat) ++ " " ++ more

theorem toList_cutAfter (text : String) (offset : Int) (more : String) :
    (cutAfter text offset more).toList = text.toList.take offset.toNat ++ ' ' :: more.toList := by
  have hspace : " ".toList = [' '] := rfl
  rw [cutAfter, String.toList_append, String.toList_append, String.toList_ofList, hspace,
    List.append_assoc]
  rfl

/-- The tokens of a text up to one are the same whatever comes after a space after it. -/
theorem take_tokens_cutAfter {text : String} {limits : Limits} {n : Nat} {token : Token}
    (htoken : (tokenize text limits).tokens[n]? = some token) (more : String) :
    (tokenize (cutAfter text token.span.stop.offset more) limits).tokens.take (n + 1) =
      (tokenize text limits).tokens.take (n + 1) := by
  let t := Tokenizer.ofText text limits
  obtain ⟨remainder, hsegmented, -⟩ := t.remaining_segmented
  obtain ⟨before, spelling, rest, htext, -, -, hstop⟩ :=
    hsegmented.exists_of_mem (List.mem_of_getElem? htoken)
  have hlength : text.toList.length = before.length + (spelling.length + rest.length) := by
    rw [← List.length_append, ← List.length_append, ← htext]
    rfl
  have hzero : t.cursor.offset = 0 := rfl
  have hfront : token.span.stop.offset =
      t.cursor.offset + (text.toList.take token.span.stop.offset.toNat).length := by
    rw [List.length_take]
    omega
  have hsplit : t.rest = text.toList.take token.span.stop.offset.toNat ++ _ :=
    (List.take_append_drop _ _).symm
  have hsame : Tokenizer.ofText (cutAfter text token.span.stop.offset more) limits =
      { t with rest := text.toList.take token.span.stop.offset.toNat ++ ' ' :: more.toList } := by
    rw [Tokenizer.ofText, toList_cutAfter]
    rfl
  rw [tokenize, hsame]
  exact t.take_remaining_replace more.toList hsplit htoken hfront

end JackSyntax
