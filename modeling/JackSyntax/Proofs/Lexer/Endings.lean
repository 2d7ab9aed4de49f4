import Mathlib.Data.List.Forall2
import JackSyntax.Proofs.Lexer.Places

/-!
# How a tokenizer ends

A tokenizer that has met an error, the end of its text or its limit on tokens can still be asked for
tokens and words. After an error it stays where it is and complains again: it stands at a lexeme
that cannot be read, and what cannot be read as a token is no word either (`word_of_next_error`).
After an end there are no more tokens, though words may still be read where the limit came first
(`HasEnded`).

Both follow from what one call does, in the same way (`performAll_forall₂`).

## Main statements

* `Tokenizer.stopsAt_of_next`: where a tokenizer stands that has met an error.
* `Tokenizer.performAll_endings`: errors and ends are final.
-/

namespace JackSyntax

/-- What starts no token starts no word. -/
theorem exists_scanWord_error {maximum : Int} {c : Char} {text : List Char}
    {cause : LexError.Cause} (h : scanLexeme maximum c text = .error cause) :
    ∃ cause', scanWord (c :: text) = .error cause' := by
  have hstart : ¬ isNameStart c = true := fun hc ↦ by
    rw [scanLexeme_of_isNameStart hc] at h
    simp at h
  by_cases hdigit : c.isDigit = true
  · exact ⟨.digitStart, by rw [scanWord, if_pos hdigit]⟩
  · exact ⟨.notWord (some c), by rw [scanWord, if_neg hdigit, if_neg hstart]⟩

namespace Tokenizer

variable {t t' : Tokenizer} {text : String} {e : LexError}

/-- If calls keep a property, what each of them answers then is answered in turn. -/
theorem performAll_forall₂ {P : Tokenizer → Prop} {Says : Call → Except LexError Reply → Prop}
    (hstep : ∀ t call, P t → Says call (t.perform text call).1 ∧ P (t.perform text call).2)
    (h : P t) (calls : List Call) :
    List.Forall₂ Says calls (t.performAll text calls).1 ∧ P (t.performAll text calls).2 := by
  induction calls generalizing t with
  | nil => exact ⟨.nil, h⟩
  | cons call calls ih =>
    obtain ⟨hreply, hkeeps⟩ := hstep t call h
    obtain ⟨hrest, hlast⟩ := ih hkeeps
    exact ⟨.cons hreply hrest, hlast⟩

/-! ### Errors -/

/-- The tokenizer has passed over the trivia where it stood before, and nothing else, and stands at
characters that spell no lexeme, where the error is. -/
structure StopsAt (t t' : Tokenizer) (text : String) (e : LexError) (gap fault : List Char) :
    Prop where
  rest_eq : t.rest = gap ++ fault
  trivia : Trivia gap fault
  starts : startsTrivia fault = false
  ne_nil : fault ≠ []
  unspelled : ∀ l spelling rest, spelling ++ rest = fault →
    ¬ Spelled t.limits.maxInteger l spelling rest
  isOn : t'.IsOn text
  position : e.position = t'.cursor.position
  /-- Nothing but the place of the cursor has changed, in particular not the number of tokens. -/
  eq : t' = { t with rest := fault, cursor := t.cursor.advance gap }

/-- An error is met at a fault after trivia. -/
theorem stopsAt_of_next (hon : t.IsOn text) (h : t.next = (.error e, t')) :
    ∃ gap fault, t.StopsAt t' text e gap fault := by
  rcases answers_of_next h with _ | _ | @⟨c, chars, cause, hspent, hrest, hscan⟩ | _
  refine ⟨(splitTrivia t.rest).1, t.skipTrivia.rest, ?_⟩
  exact {
    rest_eq := (splitTrivia_append t.rest).symm
    trivia := trivia_splitTrivia t.rest
    starts := startsTrivia_splitTrivia t.rest
    ne_nil := by simp [hrest]
    unspelled := by
      intro l spelling rest hfault hspelled
      rw [hrest] at hfault
      have hok := scanLexeme_of_spelled hspelled hfault
      simp [hscan] at hok
    isOn := hon.skipTrivia
    position := rfl
    eq := rfl }

/-- A tokenizer that has met an error reads no word. -/
theorem word_of_next_error (h : t.next = (.error e, t')) : ∃ e', t'.word = (.error e', t') := by
  rcases answers_of_next h with _ | _ | ⟨_, hrest, hscan⟩ | _
  obtain ⟨cause, hword⟩ := exists_scanWord_error hscan
  rw [← hrest] at hword
  exact ⟨⟨cause, t.skipTrivia.cursor.position⟩, by simp only [word, hword]⟩

/-- A word that cannot be read leaves the tokenizer as it is. -/
theorem eq_of_word_error (h : t.word = (.error e, t')) : t' = t := by
  rw [word] at h
  split at h
  · exact (Prod.mk.inj h).2.symm
  · simp at h

/-- What a tokenizer says that has met the error: the error again, and of words that there is
none. -/
def Refuses (e : LexError) : Call → Except LexError Reply → Prop
  | .next, reply => reply = .error e
  | .word, reply => ∃ e', reply = .error e'
  | .endPosition, reply => ∃ p, reply = .ok (.position p)

/-- Where an error was met every call meets it again, or changes nothing. -/
theorem perform_of_next_error (h : t.next = (.error e, t')) (call : Call) :
    Refuses e call (t'.perform text call).1 ∧ (t'.perform text call).2 = t' := by
  cases call with
  | next =>
    rw [perform, next_of_error h]
    exact ⟨rfl, rfl⟩
  | word =>
    obtain ⟨e', hword⟩ := word_of_next_error h
    rw [perform, hword]
    exact ⟨⟨e', rfl⟩, rfl⟩
  | endPosition => exact ⟨⟨_, rfl⟩, rfl⟩

/-! ### Ends -/

/-- No token is left, since the limit on tokens is reached or nothing is left of the text. -/
def HasEnded (t : Tokenizer) : Prop :=
  t.isSpent = true ∨ t.rest = []

/-- What a tokenizer says that has reported the end: the same again. -/
def Ends : Call → Except LexError Reply → Prop
  | .next, reply => reply = .ok (.token none)
  | .word, _ | .endPosition, _ => True

/-- A tokenizer that answers that there is no token has ended. -/
theorem hasEnded_of_next (h : t.next = (.ok none, t')) : t'.HasEnded := by
  rcases answers_of_next h with hspent | ⟨_, hrest⟩ | _ | _
  · exact .inl hspent
  · exact .inr hrest

/-- A tokenizer that has ended has no next token. -/
theorem HasEnded.next (h : t.HasEnded) : ∃ t', t.next = (.ok none, t') := by
  by_cases hspent : t.isSpent = true
  · exact ⟨t, next_of_answers (.spent hspent)⟩
  · have hrest := h.resolve_left hspent
    have hskip : t.skipTrivia = t := skipTrivia_of_not_startsTrivia (by rw [hrest]; rfl)
    exact ⟨t.skipTrivia, next_of_answers (.ended hspent (by rwa [hskip]))⟩

/-- Words are not counted, and none is read where nothing is left. -/
theorem HasEnded.word (h : t.HasEnded) : t.word.2.HasEnded := by
  rcases hscan : scanWord t.rest with cause | scan
  · rwa [Tokenizer.word, hscan]
  · rcases h with hspent | hrest
    · rw [Tokenizer.word, hscan]
      exact .inl hspent
    · simp [hrest, scanWord] at hscan

/-- A tokenizer that has ended stays so under every call. -/
theorem HasEnded.perform (h : t.HasEnded) (call : Call) :
    Ends call (t.perform text call).1 ∧ (t.perform text call).2.HasEnded := by
  cases call with
  | next =>
    obtain ⟨t', hnext⟩ := h.next
    rw [Tokenizer.perform, hnext]
    exact ⟨rfl, hasEnded_of_next hnext⟩
  | word => exact ⟨trivial, h.word⟩
  | endPosition => exact ⟨trivial, h⟩

/-- Errors and ends are final, whatever has been asked before. A tokenizer that meets an error in
place of a token has passed over trivia only and stands at what it cannot read; from then on it
complains of the same each time it is asked for a token, reads no word, and stays as it is. A word
that cannot be read changes nothing. Once there is no more token, there never is one again. -/
theorem performAll_endings (text : String) (limits : Limits) (calls : List Call) :
    let t := ((ofText text limits).performAll text calls).2
    (∀ e t', t.next = (.error e, t') →
      (∃ gap fault, t.StopsAt t' text e gap fault) ∧
      ∀ more, List.Forall₂ (Refuses e) more (t'.performAll text more).1 ∧
        (t'.performAll text more).2 = t') ∧
    (∀ e t', t.word = (.error e, t') → t' = t) ∧
    ∀ t', t.next = (.ok none, t') →
      ∀ more, List.Forall₂ Ends more (t'.performAll text more).1 := by
  intro t
  have hon : t.IsOn text := (passes_performAll (isOn_ofText text limits) calls).isOn
  refine ⟨fun e t' herror ↦ ⟨stopsAt_of_next hon herror, fun more ↦ ?_⟩,
    fun e t' hword ↦ eq_of_word_error hword, fun t' hnone more ↦ ?_⟩
  · refine performAll_forall₂ (P := (· = t')) (fun t call ht ↦ ?_) rfl more
    rw [ht]
    exact perform_of_next_error herror call
  · exact (performAll_forall₂ (P := HasEnded) (fun t call ht ↦ ht.perform call)
      (hasEnded_of_next hnone) more).1

end Tokenizer

end JackSyntax
