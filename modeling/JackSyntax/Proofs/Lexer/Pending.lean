import JackSyntax.Lexer.TokenStream
import JackSyntax.Proofs.Lexer.Trivia

/-!
# The tokens that a stream has left

A stream pulls its tokenizer as it is asked to, but what it has left does not depend on that:
`TokenStream.pending` lists the tokens that wait and those that the tokenizer would still deliver,
and `TokenStream.failure` is the error that comes after them. Looking ahead changes neither,
whatever it answers (`pulled_peek`), and its answer can be read off them (`peek_eq`).

A tokenizer that has failed stands at the faulty lexeme and fails in the same way again
(`Tokenizer.next_of_error`). Without that a stream would lose its error by passing it on.
-/

namespace JackSyntax

namespace Tokenizer

/-- Where no trivia starts, there is none to pass over. -/
theorem skipTrivia_of_not_startsTrivia {t : Tokenizer} (h : startsTrivia t.rest = false) :
    t.skipTrivia = t := by
  rw [skipTrivia, splitTrivia_of_not_startsTrivia h]
  rfl

/-- Trivia is passed over once and for all. -/
theorem skipTrivia_skipTrivia (t : Tokenizer) : t.skipTrivia.skipTrivia = t.skipTrivia :=
  skipTrivia_of_not_startsTrivia (startsTrivia_splitTrivia t.rest)

theorem limits_skipTrivia (t : Tokenizer) : t.skipTrivia.limits = t.limits := rfl

/-- Nothing else decides what is answered. -/
theorem next_of_answers {t t' : Tokenizer} {answer : Except LexError (Option Token)}
    (h : t.Answers answer t') : t.next = (answer, t') := by
  cases h with
  | spent hspent => rw [next, if_pos hspent]
  | ended hspent hrest => simp only [next, if_neg hspent, hrest]
  | failed hspent hrest hscan =>
    simp only [next, if_neg hspent, hrest, limits_skipTrivia, hscan]
  | token hspent hrest hscan =>
    simp only [next, if_neg hspent, hrest, limits_skipTrivia, hscan]
    rfl

/-- A failure repeats, and leaves the tokenizer as it is. -/
theorem next_of_error {t t' : Tokenizer} {e : LexError} (h : t.next = (.error e, t')) :
    t'.next = (.error e, t') := by
  cases answers_of_next h with
  | failed hspent _ _ =>
    have hspent' : ¬ t.skipTrivia.isSpent = true := hspent
    rw [← h, next, next, if_neg hspent, if_neg hspent', skipTrivia_skipTrivia]

/-- A token is counted as it is read, and nothing else is. -/
theorem emitted_of_token {t t' : Tokenizer} {token : Token} (h : t.next = (.ok (some token), t')) :
    t'.emitted = t.emitted + 1 := by
  cases answers_of_next h with
  | token _ _ _ => rfl

/-- At the end no token is counted. -/
theorem emitted_of_none {t t' : Tokenizer} (h : t.next = (.ok none, t')) :
    t'.emitted = t.emitted := by
  cases answers_of_next h with
  | spent _ => rfl
  | ended _ _ => rfl

/-- No token is counted where an error is met. -/
theorem emitted_of_error {t t' : Tokenizer} {e : LexError} (h : t.next = (.error e, t')) :
    t'.emitted = t.emitted := by
  cases answers_of_next h with
  | failed _ _ _ => rfl

/-- What remains starts with the next token, if there is one. -/
theorem remaining_of_token {t t' : Tokenizer} {token : Token}
    (h : t.next = (.ok (some token), t')) : t.remaining = t'.remaining.cons token := by
  rw [remaining]
  split <;> simp_all

/-- Nothing remains where there is no next token. -/
theorem remaining_of_none {t t' : Tokenizer} (h : t.next = (.ok none, t')) :
    t.remaining = ⟨[], none, t'⟩ := by
  rw [remaining]
  split <;> simp_all

/-- An error ends what remains. -/
theorem remaining_of_error {t t' : Tokenizer} {e : LexError} (h : t.next = (.error e, t')) :
    t.remaining = ⟨[], some e, t'⟩ := by
  rw [remaining]
  split <;> simp_all

end Tokenizer

namespace TokenStream

/-- The tokens that are left: those that wait, then those that the tokenizer still delivers. -/
def pending (s : TokenStream) : List Token :=
  s.window ++ if s.exhausted then [] else s.source.remaining.tokens

/-- The error that comes after the tokens that are left, if one does. -/
def failure (s : TokenStream) : Option LexError :=
  if s.exhausted then none else s.source.remaining.failure

/-- The tokens that were looked at are the first that are pending. -/
theorem window_prefix_pending (s : TokenStream) : s.window <+: s.pending :=
  List.prefix_append _ _

/-- Once the end was seen, no other tokens are pending. -/
theorem pending_of_exhausted {s : TokenStream} (h : s.exhausted = true) : s.pending = s.window := by
  rw [pending, if_pos h, List.append_nil]

/-- Once the end was seen, no error is to come. -/
theorem failure_of_exhausted {s : TokenStream} (h : s.exhausted = true) : s.failure = none := by
  rw [failure, if_pos h]

/-! ### Pulling -/

/-- The second stream is the first one pulled further, so that the same is left. -/
structure Pulled (s s' : TokenStream) : Prop where
  pending_eq : s'.pending = s.pending
  failure_eq : s'.failure = s.failure
  /-- Every token counted in between waits in the window. -/
  count : s'.source.emitted + s.window.length = s.source.emitted + s'.window.length

theorem Pulled.refl (s : TokenStream) : s.Pulled s :=
  ⟨rfl, rfl, rfl⟩

/-- Looking further ahead twice is looking further ahead. -/
theorem Pulled.trans {s s' s'' : TokenStream} (h : s.Pulled s') (h' : s'.Pulled s'') :
    s.Pulled s'' where
  pending_eq := h'.pending_eq.trans h.pending_eq
  failure_eq := h'.failure_eq.trans h.failure_eq
  count := by
    have hcount := h.count
    have hcount' := h'.count
    omega

/-- A token that is pulled joins the window. -/
theorem pulled_token {s : TokenStream} {token : Token} {source : Tokenizer}
    (hmore : ¬ s.exhausted = true) (h : s.source.next = (.ok (some token), source)) :
    s.Pulled { s with source, window := s.window ++ [token] } where
  pending_eq := by
    simp [pending, hmore, Tokenizer.remaining_of_token h, Tokenizer.Reading.cons]
  failure_eq := by
    simp [failure, hmore, Tokenizer.remaining_of_token h, Tokenizer.Reading.cons]
  count := by
    have hemitted := Tokenizer.emitted_of_token h
    simp only [List.length_append, List.length_singleton]
    omega

/-- Pulling moves tokens into the window and loses none, however it ends. -/
theorem pulled_pull (s : TokenStream) (count : Nat) : s.Pulled (s.pull count).2 := by
  induction count generalizing s with
  | zero => exact Pulled.refl s
  | succ count ih =>
    rw [pull]
    split
    · exact Pulled.refl s
    · rename_i hmore
      split
      · rename_i e source h
        -- A tokenizer that failed would deliver nothing else, and fail in the same way again.
        have hagain := Tokenizer.remaining_of_error (Tokenizer.next_of_error h)
        refine ⟨?_, ?_, ?_⟩
        · simp only [pending, hmore, Tokenizer.remaining_of_error h, hagain]
        · simp only [failure, hmore, Tokenizer.remaining_of_error h, hagain]
        · rw [← Tokenizer.emitted_of_error h]
      · rename_i source h
        refine ⟨?_, ?_, ?_⟩
        · simp [pending, hmore, Tokenizer.remaining_of_none h]
        · simp [failure, hmore, Tokenizer.remaining_of_none h]
        · rw [← Tokenizer.emitted_of_none h]
      · rename_i token source h
        exact (pulled_token hmore h).trans (ih _)

/-- A pull that does not fail brings as many tokens as it was asked for, or all there are. -/
theorem pull_ok {s s' : TokenStream} {count : Nat} (h : s.pull count = (.ok (), s')) :
    s.window.length + count ≤ s'.window.length ∨ s'.exhausted = true := by
  induction count generalizing s with
  | zero =>
    obtain ⟨-, rfl⟩ := Prod.mk.inj h
    exact .inl (Nat.le_refl _)
  | succ count ih =>
    rw [pull] at h
    split at h
    · rename_i hexhausted
      obtain ⟨-, rfl⟩ := Prod.mk.inj h
      exact .inr hexhausted
    · split at h
      · simp at h
      · obtain ⟨-, rfl⟩ := Prod.mk.inj h
        exact .inr rfl
      · refine (ih h).imp_left fun hle ↦ ?_
        simp only [List.length_append, List.length_singleton] at hle
        omega

/-- A pull that fails has brought all tokens there are, and still fewer than it was asked for. -/
theorem pull_error {s s' : TokenStream} {count : Nat} {e : LexError}
    (h : s.pull count = (.error e, s')) :
    s'.pending = s'.window ∧ s'.failure = some e ∧ count ≠ 0 ∧
      s'.window.length < s.window.length + count := by
  induction count generalizing s with
  | zero => simp [pull] at h
  | succ count ih =>
    rw [pull] at h
    split at h
    · simp at h
    · rename_i hmore
      split at h
      · rename_i source hnext
        obtain ⟨he, rfl⟩ := Prod.mk.inj h
        obtain rfl := Except.error.inj he
        have hagain := Tokenizer.remaining_of_error (Tokenizer.next_of_error hnext)
        refine ⟨?_, ?_, Nat.succ_ne_zero count, ?_⟩
        · simp [pending, hmore, hagain]
        · simp [failure, hmore, hagain]
        · show s.window.length < _
          omega
      · simp at h
      · obtain ⟨hpending, hfailure, -, hlt⟩ := ih h
        refine ⟨hpending, hfailure, Nat.succ_ne_zero count, ?_⟩
        simp only [List.length_append, List.length_singleton] at hlt
        omega

/-! ### Looking ahead and taking -/

/-- Looking ahead pulls tokens and consumes none. -/
theorem pulled_peek (s : TokenStream) (depth : Nat) : s.Pulled (s.peek depth).2 := by
  have h := s.pulled_pull (depth + 1 - s.window.length)
  rw [peek, fill]
  split <;> rename_i hpull <;> rw [hpull] at h <;> exact h

/-- The answer to looking ahead in tokens after which an error may come. -/
def ahead (tokens : List Token) (failure : Option LexError) (depth : Nat) :
    Except LexError (Option Token) :=
  match tokens[depth]?, failure with
  | some token, _ => .ok (some token)
  | none, some e => .error e
  | none, none => .ok none

/-- Looking ahead answers by what is left. -/
theorem peek_eq (s : TokenStream) (depth : Nat) :
    (s.peek depth).1 = ahead s.pending s.failure depth := by
  have hpulled := s.pulled_pull (depth + 1 - s.window.length)
  rw [peek, fill]
  split
  · rename_i e s' hpull
    rw [hpull] at hpulled
    obtain ⟨hwindow, hfail, hcount, hlt⟩ := pull_error hpull
    have hnone : s.pending[depth]? = none := by
      rw [← hpulled.pending_eq, hwindow]
      exact List.getElem?_eq_none (by omega)
    have hsome : s.failure = some e := hpulled.failure_eq.symm.trans hfail
    simp only [ahead, hnone, hsome]
  · rename_i s' hpull
    rw [hpull] at hpulled
    rcases pull_ok hpull with hle | hexhausted
    · have hlt : depth < s'.window.length := by omega
      have hsome : s.pending[depth]? = some s'.window[depth] := by
        rw [← hpulled.pending_eq]
        exact (List.prefix_iff_getElem?.1 s'.window_prefix_pending) depth hlt
      simp only [ahead, hsome, List.getElem?_eq_getElem hlt]
    · have hwindow : s.pending = s'.window :=
        hpulled.pending_eq.symm.trans (pending_of_exhausted hexhausted)
      have hnone : s.failure = none :=
        hpulled.failure_eq.symm.trans (failure_of_exhausted hexhausted)
      rw [hwindow, hnone]
      cases h : s'.window[depth]? <;> simp only [ahead, h]

/-- Taking the token that waits in front leaves the others. -/
theorem pending_advance {s : TokenStream} {token : Token} {window : List Token}
    (h : s.window = token :: window) : s.pending = token :: s.advance.2.pending := by
  rw [advance_of_window h, pending, h]
  rfl

/-- Consuming a token leaves the error as it is that the tokens end in. -/
theorem failure_advance {s : TokenStream} {token : Token} {window : List Token}
    (h : s.window = token :: window) : s.advance.2.failure = s.failure := by
  rw [advance_of_window h]
  rfl

end TokenStream

end JackSyntax
