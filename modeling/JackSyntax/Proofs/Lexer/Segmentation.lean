import JackSyntax.Proofs.Lexer.Pending
import JackSyntax.Proofs.Lexer.Spelling

/-!
# Tokens cut their text into pieces

The tokens of a text are its lexemes in order, with trivia between them, and nothing is lost: from
the tokens and the gaps the text can be put together again (`Segmented`). What is left after the
last token is trivia, or something that spells no lexeme, or whatever follows when the limit on
tokens is reached (`Remains`).

## Main statements

* `Tokenizer.reads_of_next`: the token read next, and the tokenizer then.
* `tokenize_segmented`: the tokens of a text cut it into pieces.
-/

namespace JackSyntax

/-- A text that begins at the offset, cut into gaps of trivia and the spellings of tokens, with a
remainder after the last of them. -/
inductive Segmented (maximum : Int) : Nat → List Char → List Token → List Char → Prop
  | nil {offset : Nat} {remainder : List Char} : Segmented maximum offset remainder [] remainder
  | cons {offset : Nat} {gap spelling rest remainder : List Char} {token : Token}
    {tokens : List Token} (hgap : Trivia gap (spelling ++ rest))
    (hstarts : startsTrivia (spelling ++ rest) = false)
    (hspelled : Spelled maximum token.lexeme spelling rest)
    (hstart : token.span.start.offset = offset + gap.length)
    (hstop : token.span.stop.offset = offset + gap.length + spelling.length)
    (hrest : Segmented maximum (offset + gap.length + spelling.length) rest tokens remainder) :
    Segmented maximum offset (gap ++ (spelling ++ rest)) (token :: tokens) remainder

/-- What is left of a text when no token more is read from it, by the error that comes then. -/
inductive Remains (maximum : Int) (endOffset : Int) (spent : Prop) :
    Option LexError → List Char → Prop
  /-- At the end of the text there is only trivia left. -/
  | trivia {remainder : List Char} (htrivia : Trivia remainder []) :
    Remains maximum endOffset spent none remainder
  /-- Once the limit on tokens is reached, there may be anything. -/
  | spent {remainder : List Char} (hspent : spent) : Remains maximum endOffset spent none remainder
  /-- Where an error is met, nothing is spelled. -/
  | fault {gap fault : List Char} {e : LexError} (hspent : ¬ spent) (hgap : Trivia gap fault)
    (hstarts : startsTrivia fault = false) (hne : fault ≠ [])
    (hposition : e.position.offset = endOffset - fault.length)
    (hnone : ∀ l spelling rest, spelling ++ rest = fault → ¬ Spelled maximum l spelling rest) :
    Remains maximum endOffset spent (some e) (gap ++ fault)

/-- The characters of the text that the span covers. -/
def Span.slice (span : Span) (text : List Char) : List Char :=
  (text.drop span.start.offset.toNat).take
    (span.stop.offset.toNat - span.start.offset.toNat)

/-! ### Reading one token -/

theorem Cursor.offset_advance (cursor : Cursor) (text : List Char) :
    (cursor.advance text).offset = cursor.offset + text.length := by
  induction text generalizing cursor with
  | nil => rfl
  | cons c text ih =>
    show ((cursor.step c).advance text).offset = _
    rw [ih, List.length_cons]
    show cursor.offset + 1 + text.length = _
    omega

namespace Tokenizer

variable {t t' : Tokenizer} {gap spelling rest : List Char} {l : Lexeme} {token : Token}

theorem isSpent_iff : t.isSpent = true ↔ t.limits.maxTokens ≤ t.emitted := by
  rw [isSpent, decide_eq_true_eq]

/-- A token is read from the characters after a gap, and the tokenizer is then past them. -/
structure Reads (t : Tokenizer) (gap spelling : List Char) (token : Token) (t' : Tokenizer) :
    Prop where
  rest_eq : t.rest = gap ++ (spelling ++ t'.rest)
  trivia : Trivia gap (spelling ++ t'.rest)
  starts : startsTrivia (spelling ++ t'.rest) = false
  spelled : Spelled t.limits.maxInteger token.lexeme spelling t'.rest
  start : token.span.start.offset = t.cursor.offset + gap.length
  stop : token.span.stop.offset = t.cursor.offset + gap.length + spelling.length
  offset : t'.cursor.offset = t.cursor.offset + gap.length + spelling.length
  limits : t'.limits = t.limits
  notSpent : ¬ t.limits.maxTokens ≤ t.emitted

/-- The trivia at the cursor, which goes as far as it can. -/
theorem exists_gap (t : Tokenizer) :
    ∃ gap, t.rest = gap ++ t.skipTrivia.rest ∧ Trivia gap t.skipTrivia.rest ∧
      startsTrivia t.skipTrivia.rest = false ∧
      t.skipTrivia.cursor.offset = t.cursor.offset + gap.length :=
  ⟨(splitTrivia t.rest).1, (splitTrivia_append t.rest).symm, trivia_splitTrivia t.rest,
    startsTrivia_splitTrivia t.rest, Cursor.offset_advance _ _⟩

/-- A lexeme is spelled next, after a gap and in front of the rest of the text. -/
structure Front (t : Tokenizer) (gap spelling : List Char) (l : Lexeme) (rest : List Char) :
    Prop where
  notSpent : ¬ t.isSpent = true
  rest_eq : t.rest = gap ++ (spelling ++ rest)
  trivia : Trivia gap (spelling ++ rest)
  starts : startsTrivia (spelling ++ rest) = false
  spelled : Spelled t.limits.maxInteger l spelling rest

/-- The lexeme as a token, where it is spelled after a gap. -/
def placed (t : Tokenizer) (gap spelling : List Char) (l : Lexeme) : Token where
  lexeme := l
  span := ⟨(t.cursor.advance gap).position, ((t.cursor.advance gap).advance spelling).position⟩

/-- The tokenizer past a gap and a spelling. -/
def past (t : Tokenizer) (gap spelling rest : List Char) : Tokenizer :=
  { t with
    rest
    cursor := (t.cursor.advance gap).advance spelling
    emitted := t.emitted + 1 }

theorem offset_past (t : Tokenizer) (gap spelling rest : List Char) :
    (t.past gap spelling rest).cursor.offset = t.cursor.offset + gap.length + spelling.length := by
  show ((t.cursor.advance gap).advance spelling).offset = _
  rw [Cursor.offset_advance, Cursor.offset_advance]

/-- What is read next is spelled next. -/
theorem exists_front (h : t.next = (.ok (some token), t')) :
    ∃ gap spelling l rest, t.Front gap spelling l rest ∧ token = t.placed gap spelling l ∧
      t' = t.past gap spelling rest := by
  cases answers_of_next h with
  | @token c text scan hspent htext hscan =>
    obtain ⟨hspelled, htaken⟩ := scanLexeme_eq_ok_iff.1 hscan
    have hrest : (splitTrivia t.rest).2 = scan.taken ++ scan.rest := by
      rw [htaken, ← htext]
      rfl
    refine ⟨(splitTrivia t.rest).1, scan.taken, scan.lexeme, scan.rest, ?_, rfl, rfl⟩
    exact {
      notSpent := hspent
      rest_eq := by rw [← hrest, splitTrivia_append]
      trivia := hrest ▸ trivia_splitTrivia t.rest
      starts := hrest ▸ startsTrivia_splitTrivia t.rest
      spelled := hspelled }

theorem reads_of_next (h : t.next = (.ok (some token), t')) :
    ∃ gap spelling, t.Reads gap spelling token t' := by
  obtain ⟨gap, spelling, l, rest, hfront, rfl, rfl⟩ := exists_front h
  have hstart : (t.cursor.advance gap).offset = t.cursor.offset + gap.length :=
    Cursor.offset_advance _ _
  have hstop := t.offset_past gap spelling rest
  exact ⟨gap, spelling, {
    rest_eq := hfront.rest_eq
    trivia := hfront.trivia
    starts := hfront.starts
    spelled := hfront.spelled
    start := congrArg Nat.cast hstart
    stop := congrArg Nat.cast hstop
    offset := hstop
    limits := rfl
    notSpent := mt isSpent_iff.2 hfront.notSpent }⟩

/-- No token is read at the end of the text, with only trivia before it, and when the limit on
tokens is reached. -/
theorem remains_of_next_none (h : t.next = (.ok none, t')) :
    t.limits.maxTokens ≤ t.emitted ∨ Trivia t.rest [] := by
  cases answers_of_next h with
  | spent hspent => exact .inl (isSpent_iff.1 hspent)
  | ended _ hnil =>
    obtain ⟨gap, hrest, hgap, -, -⟩ := t.exists_gap
    rw [hnil] at hrest hgap
    rw [List.append_nil] at hrest
    exact .inr (hrest ▸ hgap)

/-- An error is met where nothing is spelled. -/
theorem remains_of_next_error {e : LexError} (h : t.next = (.error e, t')) :
    Remains t.limits.maxInteger (t.cursor.offset + t.rest.length)
      (t.limits.maxTokens ≤ t.emitted) (some e) t.rest := by
  obtain ⟨gap, hrest, hgap, hstarts, hoffset⟩ := t.exists_gap
  cases answers_of_next h with
  | @failed c text cause hspent htext hscan =>
    rw [hrest]
    refine .fault (mt isSpent_iff.2 hspent) hgap hstarts (by simp [htext]) ?_ ?_
    · show (t.skipTrivia.cursor.offset : Int) = _
      rw [hoffset, List.length_append]
      omega
    · intro l spelling rest hfault hspelled
      rw [htext] at hfault
      have hok := scanLexeme_of_spelled hspelled hfault
      exact absurd (hscan.symm.trans hok) (by simp)

/-! ### Reading to the end -/

/-- The tokens that are still delivered cut what is left into pieces. -/
theorem remaining_segmented (t : Tokenizer) :
    ∃ remainder, Segmented t.limits.maxInteger t.cursor.offset t.rest t.remaining.tokens remainder ∧
      Remains t.limits.maxInteger (t.cursor.offset + t.rest.length)
        (t.limits.maxTokens ≤ t.emitted + t.remaining.tokens.length) t.remaining.failure
        remainder := by
  induction t using remaining.induct with
  | case1 t token t' h ih =>
    obtain ⟨gap, spelling, hreads⟩ := reads_of_next h
    obtain ⟨remainder, hsegmented, hremains⟩ := ih
    rw [hreads.limits, hreads.offset] at hsegmented hremains
    -- The text ends where it did, and the token that was read is one of those counted.
    have hend : (t.cursor.offset + (gap ++ (spelling ++ t'.rest)).length : Int) =
        (t.cursor.offset + gap.length + spelling.length : Nat) + t'.rest.length := by
      simp only [List.length_append]
      omega
    have hcount : (t.emitted + (t'.remaining.cons token).tokens.length : Int) =
        t'.emitted + t'.remaining.tokens.length := by
      simp only [emitted_of_token h, Reading.cons, List.length_cons]
      omega
    rw [remaining_of_token h, hreads.rest_eq, hend, hcount]
    exact ⟨remainder, .cons hreads.trivia hreads.starts hreads.spelled hreads.start hreads.stop
      hsegmented, hremains⟩
  | case2 t t' h =>
    rw [remaining_of_none h]
    refine ⟨t.rest, .nil, ?_⟩
    rcases remains_of_next_none h with hspent | htrivia
    · exact .spent (by simpa using hspent)
    · exact .trivia htrivia
  | case3 t e t' h =>
    rw [remaining_of_error h]
    refine ⟨t.rest, .nil, ?_⟩
    simpa using remains_of_next_error h

/-- No more tokens are delivered than the limit allows. -/
theorem emitted_add_remaining_le (t : Tokenizer) :
    (t.emitted + t.remaining.tokens.length : Int) ≤ max t.limits.maxTokens t.emitted := by
  induction t using remaining.induct with
  | case1 t token t' h ih =>
    obtain ⟨gap, spelling, hreads⟩ := reads_of_next h
    have hspent := hreads.notSpent
    rw [hreads.limits, emitted_of_token h] at ih
    simp only [remaining_of_token h, Reading.cons, List.length_cons]
    omega
  | case2 t t' h =>
    rw [remaining_of_none h]
    show (t.emitted + (0 : Nat) : Int) ≤ _
    omega
  | case3 t e t' h =>
    rw [remaining_of_error h]
    show (t.emitted + (0 : Nat) : Int) ≤ _
    omega

end Tokenizer

/-! ### A whole text -/

section Pieces

variable {maximum : Int} {offset : Nat} {text remainder : List Char} {tokens : List Token}
  {token : Token}

theorem Spelled.ne_nil {l : Lexeme} {spelling rest : List Char}
    (h : Spelled maximum l spelling rest) : spelling ≠ [] := by
  have hword : ∀ {word : List Char}, IsWord word rest → word ≠ [] := by
    rintro word hword rfl
    obtain ⟨c, hc, -⟩ := hword.starts
    simp at hc
  cases h with
  | symbol => simp
  | integer hne _ _ => exact hne
  | string _ => simp
  | keyword h => exact hword h
  | identifier h _ => exact hword h

/-- Where the spelling of each token stands. -/
theorem Segmented.exists_of_mem (h : Segmented maximum offset text tokens remainder)
    (hmem : token ∈ tokens) :
    ∃ before spelling rest, text = before ++ (spelling ++ rest) ∧
      Spelled maximum token.lexeme spelling rest ∧
      token.span.start.offset = offset + before.length ∧
      token.span.stop.offset = offset + before.length + spelling.length := by
  induction h with
  | nil => simp at hmem
  | @cons offset gap spelling rest remainder front tokens _ _ hspelled hstart hstop _ ih =>
    rcases List.mem_cons.1 hmem with rfl | hmem
    · exact ⟨gap, spelling, rest, rfl, hspelled, hstart, hstop⟩
    · obtain ⟨before, spelling', rest', rfl, hspelled', hstart', hstop'⟩ := ih hmem
      refine ⟨gap ++ (spelling ++ before), spelling', rest', ?_, hspelled', ?_, ?_⟩
      · simp only [List.append_assoc]
      · simp only [hstart', List.length_append]
        omega
      · simp only [hstop', List.length_append]
        omega

/-- Every token takes some characters, and the next one begins no earlier than it ends. -/
theorem Segmented.pairwise (h : Segmented maximum offset text tokens remainder) :
    tokens.Pairwise fun t t' ↦ t.span.start.offset < t.span.stop.offset ∧
      t.span.stop.offset ≤ t'.span.start.offset ∧
      t'.span.start.offset < t'.span.stop.offset := by
  induction h with
  | nil => exact .nil
  | @cons offset gap spelling rest remainder front tokens _ _ hspelled hstart hstop hrest ih =>
    refine .cons (fun t' hmem ↦ ?_) ih
    obtain ⟨before, spelling', rest', -, hspelled', hstart', hstop'⟩ := hrest.exists_of_mem hmem
    have hpos := List.length_pos_iff.2 hspelled.ne_nil
    have hpos' := List.length_pos_iff.2 hspelled'.ne_nil
    omega

/-- Each lexeme is spelled by the characters that the span of its token covers. -/
theorem Segmented.spelled_slice (h : Segmented maximum 0 text tokens remainder)
    (hmem : token ∈ tokens) :
    ∃ rest, text.drop token.span.start.offset.toNat = token.span.slice text ++ rest ∧
      Spelled maximum token.lexeme (token.span.slice text) rest := by
  obtain ⟨before, spelling, rest, rfl, hspelled, hstart, hstop⟩ := h.exists_of_mem hmem
  have hstart' : token.span.start.offset.toNat = before.length := by omega
  have hstop' : token.span.stop.offset.toNat = before.length + spelling.length := by omega
  have hslice : token.span.slice (before ++ (spelling ++ rest)) = spelling := by
    rw [Span.slice, hstart', hstop', List.drop_left, Nat.add_sub_cancel_left, List.take_left]
  rw [hslice, hstart', List.drop_left]
  exact ⟨rest, rfl, hspelled⟩

end Pieces

/-- The tokens of a text cut it into pieces, and nothing is lost. Each lexeme is spelled at the span
of its token, with trivia in front of it, and the spans follow one another. After the last token
there is trivia up to the end of the text, or up to where an error is met and nothing is spelled, or
there is anything if the limit on tokens is reached. -/
theorem tokenize_segmented (text : String) (limits : Limits) :
    let reading := tokenize text limits
    (∃ remainder, Segmented limits.maxInteger 0 text.toList reading.tokens remainder ∧
      Remains limits.maxInteger text.toList.length (limits.maxTokens ≤ reading.tokens.length)
        reading.failure remainder) ∧
    (∀ token ∈ reading.tokens, ∃ rest,
      text.toList.drop token.span.start.offset.toNat = token.span.slice text.toList ++ rest ∧
        Spelled limits.maxInteger token.lexeme (token.span.slice text.toList) rest) ∧
    (reading.tokens.Pairwise fun t t' ↦ t.span.start.offset < t.span.stop.offset ∧
      t.span.stop.offset ≤ t'.span.start.offset ∧
      t'.span.start.offset < t'.span.stop.offset) ∧
    (reading.tokens.length : Int) ≤ max limits.maxTokens 0 := by
  intro reading
  obtain ⟨remainder, hsegmented, hremains⟩ := (Tokenizer.ofText text limits).remaining_segmented
  have hend : ((Tokenizer.ofText text limits).cursor.offset : Int) +
      (Tokenizer.ofText text limits).rest.length = text.toList.length := Int.zero_add _
  have hcount : ((Tokenizer.ofText text limits).emitted : Int) + reading.tokens.length =
      reading.tokens.length := Int.zero_add _
  have hle := (Tokenizer.ofText text limits).emitted_add_remaining_le
  refine ⟨⟨remainder, hsegmented, ?_⟩, fun token ↦ hsegmented.spelled_slice, hsegmented.pairwise,
    hcount ▸ hle⟩
  rw [← hend, ← hcount]
  exact hremains

end JackSyntax
