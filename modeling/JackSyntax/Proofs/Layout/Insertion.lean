import JackSyntax.Proofs.Layout.Parses
import JackSyntax.Proofs.Lexer.Continuation

/-!
# Trivia may be put between any two tokens

A text keeps its lexemes and its tree when trivia is put at its start or just after one of its
tokens. The trivia has to be complete, so that no comment in it goes on into what comes after it,
and to begin with a blank character, so that it continues neither a number nor a word and makes no
comment of a slash before it.

Up to the place, the two texts are read in the same way, since a token does not depend on what comes
after a blank character after it (`Tokenizer.Front.replace`). From there on the two tokenizers have
the same left once trivia is passed over, which is all that they answer by. `Gapped` says both.

## Main statements

* `Tokenizer.gapped_simulates`: the tokenizers answer alike before the place and after it.
* `Source.trivia_inserted`: the tokens, the events and the complaint of a text with trivia put in.
-/

namespace JackSyntax

/-- Layouts with the same strings, at any places. -/
def Relayout.spacing : Relayout where
  string := id
  place _ _ := True

@[simp]
theorem Relayout.lexeme_spacing (l : Lexeme) : Relayout.spacing.lexeme l = l := by
  cases l <;> rfl

theorem Relayout.event_spacing : Relayout.spacing.event = id := by
  funext e
  cases e with
  | terminal kind text => simp [event, spacing]
  | enter name => rfl
  | leave name => rfl

/-- Whether the text is trivia that ends by itself: where a name comes after it, all of it and
nothing more is passed over. -/
def IsCompleteTrivia (gap : List Char) : Prop :=
  (splitTrivia (gap ++ ['x'])).1.length = gap.length

instance (gap : List Char) : Decidable (IsCompleteTrivia gap) :=
  inferInstanceAs (Decidable (_ = _))

/-- Complete trivia is trivia in front of anything. -/
theorem IsCompleteTrivia.trivia {gap : List Char} (h : IsCompleteTrivia gap) (rest : List Char) :
    Trivia gap rest := by
  have hsplit := splitTrivia_append (gap ++ ['x'])
  obtain ⟨hgap, hrest⟩ := List.append_inj hsplit h
  have htrivia := trivia_splitTrivia (gap ++ ['x'])
  rw [hgap, hrest] at htrivia
  exact htrivia.of_ne_nil (List.cons_ne_nil _ _)

namespace Tokenizer

variable {t t' : Tokenizer} {gap : List Char}

/-- The second tokenizer reads the same text with trivia put in, which is still to come or has been
passed over. -/
inductive Gapped (gap : List Char) (t t' : Tokenizer) : Prop
  /-- The place comes after what is read next, at the end of a token that is still to come. -/
  | before {front back : List Char} {token : Token} (hrest : t.rest = front ++ back)
    (heq : t' = { t with rest := front ++ (gap ++ back) }) (hmem : token ∈ t.remaining.tokens)
    (hstop : token.span.stop.offset = t.cursor.offset + front.length)
  /-- Once trivia is passed over, the same is left. -/
  | past (hlimits : t'.limits = t.limits) (hemitted : t'.emitted = t.emitted)
    (hrest : t'.skipTrivia.rest = t.skipTrivia.rest)

/-- At the place itself, the same is left once trivia is passed over. -/
theorem gapped_of_rest (hgap : IsCompleteTrivia gap) (t : Tokenizer) :
    Gapped gap t { t with rest := gap ++ t.rest } := by
  refine .past rfl rfl ?_
  show (splitTrivia (gap ++ t.rest)).2 = (splitTrivia t.rest).2
  rw [splitTrivia_append_of_trivia (hgap.trivia t.rest)]

/-- Where the same is left once trivia is passed over, the same is answered. -/
theorem answers_of_past (hlimits : t'.limits = t.limits) (hemitted : t'.emitted = t.emitted)
    (hrest : t'.skipTrivia.rest = t.skipTrivia.rest) :
    Relayout.spacing.Answers (Gapped gap) t.next t'.next := by
  have hspent' : t'.isSpent = t.isSpent := by rw [isSpent, isSpent, hlimits, hemitted]
  rcases hnext : t.next with ⟨answer, t₁⟩
  cases answers_of_next hnext with
  | spent hspent =>
    rw [next_of_answers (.spent (hspent'.trans hspent))]
    exact .none
  | ended hspent hnil =>
    rw [next_of_answers (.ended (hspent' ▸ hspent) (hrest.trans hnil))]
    exact .none
  | failed hspent htext hscan =>
    rw [next_of_answers (.failed (hspent' ▸ hspent) (hrest.trans htext) (hlimits ▸ hscan))]
    exact .error ⟨rfl, trivial⟩
  | token hspent htext hscan =>
    rw [next_of_answers (.token (hspent' ▸ hspent) (hrest.trans htext) (hlimits ▸ hscan))]
    refine .token ⟨(Relayout.lexeme_spacing _).symm, trivial, trivial⟩ (.past hlimits ?_ rfl)
    exact congrArg (· + 1) hemitted

/-- A token that is read before the place is read in both texts. -/
theorem answers_of_before {front back : List Char} {token : Token} (hgap : IsCompleteTrivia gap)
    (hblank : ∃ c ∈ gap.head?, isBlank c = true) (hrest : t.rest = front ++ back)
    (hmem : token ∈ t.remaining.tokens)
    (hstop : token.span.stop.offset = t.cursor.offset + front.length) :
    Relayout.spacing.Answers (Gapped gap) t.next
      { t with rest := front ++ (gap ++ back) }.next := by
  rcases hnext : t.next with ⟨e | (_ | first), t₁⟩
  · simp [remaining_of_error hnext] at hmem
  · simp [remaining_of_none hnext] at hmem
  obtain ⟨before, spelling, l, rest, hfront, rfl, rfl⟩ := exists_front hnext
  have hoffset := t.offset_past before spelling rest
  rw [remaining_of_token hnext] at hmem
  -- The token that ends at the place is the next one or comes after it.
  have hle : ((t.past before spelling rest).cursor.offset : Int) ≤ token.span.stop.offset := by
    rcases List.mem_cons.1 hmem with rfl | hmem
    · exact Int.le_refl _
    · exact le_stop_of_mem hmem
  obtain ⟨between, rfl, rfl⟩ := hfront.exists_split hrest (by omega)
  obtain ⟨c, hc, hblank⟩ := hblank
  obtain ⟨more, rfl⟩ := List.head?_eq_some_iff.1 hc
  have hnext' := (hfront.replace (follows_append hblank between back (more ++ back))).next
  have hsame : before ++ (spelling ++ between) ++ (c :: more ++ back) =
      before ++ (spelling ++ (between ++ c :: (more ++ back))) := by
    simp only [List.append_assoc, List.cons_append]
  rw [hsame, hnext']
  refine .token ⟨(Relayout.lexeme_spacing _).symm, trivial, trivial⟩ ?_
  rcases List.mem_cons.1 hmem with rfl | hmem
  · -- The token has been read, so the place is where the tokenizers are.
    have hbetween : between = [] := by
      have hstop : ((t.past before spelling (between ++ back)).cursor.offset : Int) = _ := hstop
      simp only [List.length_append] at hstop
      exact List.eq_nil_of_length_eq_zero (by omega)
    subst hbetween
    exact gapped_of_rest hgap (t.past before spelling back)
  · refine .before rfl rfl hmem ?_
    simp only [List.length_append] at hstop
    omega

/-- The tokenizers answer alike before the place and after it. -/
theorem gapped_simulates (hgap : IsCompleteTrivia gap)
    (hblank : ∃ c ∈ gap.head?, isBlank c = true) :
    Relayout.spacing.Simulates (Gapped gap) := by
  intro t t' h
  cases h with
  | before hrest heq hmem hstop => exact heq ▸ answers_of_before hgap hblank hrest hmem hstop
  | past hlimits hemitted hrest => exact answers_of_past hlimits hemitted hrest

end Tokenizer

/-! ### Tokens, events and complaints -/

/-- Failures that correspond say the same. -/
theorem Relayout.Failures.says_same {failure failure' : ParseFailure}
    (h : Relayout.spacing.Failures failure failure') (source source' : Source) :
    (failure'.diagnostic source').message = (failure.diagnostic source).message ∧
      (failure'.diagnostic source').origin = (failure.diagnostic source).origin := by
  cases h with
  | lexical he => exact ⟨congrArg LexError.Cause.message he.cause_eq, rfl⟩
  | @syntactic rule expected found found' hfound =>
    have htext : found'.text = found.text := by
      cases hfound with
      | token htoken => simp [Found.text, htoken.lexeme_eq]
      | endOfInput _ => rfl
    refine ⟨?_, by simp [ParseFailure.diagnostic, SyntaxError.diagnostic, htext]⟩
    cases hfound with
    | token _ => simp [ParseFailure.diagnostic, SyntaxError.diagnostic, SyntaxError.message, htext]
    | endOfInput _ => rfl

/-- The texts before and after the place are read as they were, with the trivia between them. -/
theorem readings_inserted {limits : Limits} {front gap back : String}
    (hplace : front = "" ∨ ∃ token ∈ (tokenize (front ++ back) limits).tokens,
      token.span.stop.offset = front.length)
    (hgap : IsCompleteTrivia gap.toList) (hblank : ∃ c ∈ gap.toList.head?, isBlank c = true) :
    Relayout.spacing.Readings (tokenize (front ++ back) limits)
      (tokenize (front ++ gap ++ back) limits) := by
  refine (Tokenizer.gapped_simulates hgap hblank).remaining ?_
  have htext : (front ++ back).toList = front.toList ++ back.toList := String.toList_append
  have htext' : (front ++ gap ++ back).toList = front.toList ++ (gap.toList ++ back.toList) := by
    rw [String.toList_append, String.toList_append, List.append_assoc]
  have hofText : Tokenizer.ofText (front ++ gap ++ back) limits =
      { Tokenizer.ofText (front ++ back) limits with
        rest := front.toList ++ (gap.toList ++ back.toList) } := by
    rw [Tokenizer.ofText, htext']
    rfl
  rw [hofText]
  rcases hplace with rfl | ⟨token, hmem, hstop⟩
  · have hback : (Tokenizer.ofText ("" ++ back) limits).rest = back.toList := htext
    rw [← hback]
    exact Tokenizer.gapped_of_rest hgap _
  · refine .before htext rfl hmem ?_
    rw [hstop]
    exact (Int.zero_add _).symm

namespace Source

/-- Complete trivia that begins with a blank character may be put at the start of a source or at the
end of any of its tokens. The lexemes are the same then, and so is the error that ends the reading.
The events are the same too, or there is a complaint of the same origin in the same words. -/
theorem trivia_inserted (source : Source) (limits : Limits) {front gap back : String}
    (hsource : source.text = front ++ back)
    (hplace : front = "" ∨ ∃ token ∈ (source.reading limits).tokens,
      token.span.stop.offset = front.length)
    (hgap : IsCompleteTrivia gap.toList) (hblank : ∃ c ∈ gap.toList.head?, isBlank c = true) :
    let source' := { source with text := front ++ gap ++ back }
    (source'.reading limits).tokens.map Token.lexeme =
      (source.reading limits).tokens.map Token.lexeme ∧
    (source'.reading limits).failure.map LexError.cause =
      (source.reading limits).failure.map LexError.cause ∧
    ResultRel (fun d d' ↦ d'.message = d.message ∧ d'.origin = d.origin) Eq
      (source.events limits) (source'.events limits) := by
  intro source'
  rw [reading, hsource] at hplace
  have hreadings : Relayout.spacing.Readings (source.reading limits) (source'.reading limits) := by
    rw [reading, hsource]
    exact readings_inserted hplace hgap hblank
  refine ⟨by simpa using Relayout.map_lexeme_of_tokens hreadings.tokens,
    Relayout.map_cause_of_errors hreadings.failure, ?_⟩
  refine (hreadings.events trivial).imp ?_ fun events events' h ↦ ?_
  · rintro d d' ⟨failure, failure', hfailure, rfl, rfl⟩
    exact hfailure.says_same source source'
  · rw [h, Relayout.event_spacing, List.map_id]

/-- A comment with a slash and a star in it, and one through the end of its line, after a number
that a letter follows. -/
theorem trivia_inserted_let :
    let source : Source := ⟨"input.jack", "let 12" ++ "ab = //"⟩
    let source' : Source := ⟨"input.jack", "let 12" ++ "\t/* / * **/ //\n" ++ "ab = //"⟩
    let lexemes : List Lexeme := [.keyword .kwLet, .integer 12, .identifier "ab", .symbol .equals]
    (source.reading ⟨9, 99⟩).tokens.map Token.lexeme = lexemes ∧
      (source'.reading ⟨9, 99⟩).tokens.map Token.lexeme = lexemes := by
  intro source source' lexemes
  have hread : (source.reading ⟨9, 99⟩).tokens.map Token.lexeme = lexemes := by decide +kernel
  have hplace : ∃ token ∈ (source.reading ⟨9, 99⟩).tokens,
      token.span.stop.offset = "let 12".length := by decide +kernel
  have hgap : IsCompleteTrivia "\t/* / * **/ //\n".toList := by decide +kernel
  have hsame := source.trivia_inserted ⟨9, 99⟩ rfl (.inr hplace) hgap ⟨'\t', rfl, rfl⟩
  exact ⟨hread, hsame.1.trans hread⟩

end Source

end JackSyntax
