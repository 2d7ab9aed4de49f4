import JackSyntax.Lexer.Tokenizer

/-!
# Looking ahead

A `TokenStream` looks ahead in a tokenizer and pulls it only as far as it was asked to look. Tokens
pulled and not yet taken wait in the window, and the tokenizer is never asked again once it has
answered that there is no more. An error of the tokenizer is passed on and loses no waiting token.
-/

namespace JackSyntax

/-- A tokenizer with the tokens pulled from it and not yet taken. -/
structure TokenStream where
  /-- Where the next tokens come from. -/
  source : Tokenizer
  /-- The tokens that wait, in order. -/
  window : List Token := []
  /-- Whether the tokenizer has answered that there is no more. -/
  exhausted : Bool := false

namespace TokenStream

/-- Pulls up to `count` tokens, stopping where the tokenizer ends or fails. -/
def pull : (count : Nat) → TokenStream → Except LexError Unit × TokenStream
  | 0, s => (.ok (), s)
  | count + 1, s =>
    if s.exhausted then (.ok (), s)
    else
      match s.source.next with
      -- The window stays as it is, so that tokens pulled before the error can still be taken.
      | (.error e, source) => (.error e, { s with source })
      | (.ok none, source) => (.ok (), { s with source, exhausted := true })
      | (.ok (some token), source) => pull count { s with source, window := s.window ++ [token] }

/-- Pulls until more than `depth` tokens wait, if there are as many. -/
def fill (s : TokenStream) (depth : Nat) : Except LexError Unit × TokenStream :=
  s.pull (depth + 1 - s.window.length)

/-- The token `depth` places ahead, which stays in the window. -/
def peek (s : TokenStream) (depth : Nat) : Except LexError (Option Token) × TokenStream :=
  match s.fill depth with
  | (.error e, s) => (.error e, s)
  | (.ok (), s) => (.ok s.window[depth]?, s)

/-- Takes the front token. -/
def advance (s : TokenStream) : Except LexError (Option Token) × TokenStream :=
  match s.fill 0 with
  | (.error e, s) => (.error e, s)
  | (.ok (), s) => (.ok s.window.head?, { s with window := s.window.tail })

/-- Whether no token is left. -/
def atEnd (s : TokenStream) : Except LexError Bool × TokenStream :=
  match s.peek 0 with
  | (.error e, s) => (.error e, s)
  | (.ok token, s) => (.ok token.isNone, s)

/-! ### What is left of a stream -/

/-- The tokens that wait and the characters not yet read. No more tokens than that are left. -/
def extent (s : TokenStream) : Nat :=
  s.window.length + s.source.rest.length

/-- Pulling tokens consumes none. -/
theorem extent_pull_le (s : TokenStream) (count : Nat) : (s.pull count).2.extent ≤ s.extent := by
  induction count generalizing s with
  | zero => exact Nat.le_refl _
  | succ count ih =>
    rw [pull]
    split
    · exact Nat.le_refl _
    · have hle := s.source.length_rest_next_le
      split
      · rename_i h
        rw [h] at hle
        exact Nat.add_le_add_left hle _
      · rename_i h
        rw [h] at hle
        exact Nat.add_le_add_left hle _
      · rename_i token source h
        refine Nat.le_trans (ih _) ?_
        -- The token that now waits took at least one character.
        have hlt := Tokenizer.length_rest_lt_of_next h
        simp only [extent, List.length_append, List.length_singleton]
        omega

/-- Looking ahead consumes no tokens. -/
theorem extent_peek_le (s : TokenStream) (depth : Nat) : (s.peek depth).2.extent ≤ s.extent := by
  have h := s.extent_pull_le (depth + 1 - s.window.length)
  rw [peek, fill]
  split <;> rename_i hpull <;> rw [hpull] at h <;> exact h

/-- The token looked at waits at the front of the window. -/
theorem window_peek_zero {s s' : TokenStream} {token : Token}
    (h : s.peek 0 = (.ok (some token), s')) : ∃ window, s'.window = token :: window := by
  rw [peek] at h
  split at h
  · simp at h
  · obtain ⟨hfront, rfl⟩ := Prod.mk.inj h
    rename_i s' _
    cases hwindow : s'.window with
    | nil => simp [hwindow] at hfront
    | cons front window =>
      simp only [hwindow, List.getElem?_cons_zero, Except.ok.injEq, Option.some.injEq] at hfront
      exact ⟨window, by rw [hfront]⟩

/-- A token that waits is taken without pulling any. -/
theorem advance_of_window {s : TokenStream} {token : Token} {window : List Token}
    (h : s.window = token :: window) : s.advance = (.ok (some token), { s with window }) := by
  have hcount : 0 + 1 - s.window.length = 0 := by
    rw [h, List.length_cons]
    omega
  rw [advance, fill, hcount, pull]
  simp [h]

end TokenStream

end JackSyntax
