import Mathlib.Data.List.Forall2
import JackSyntax.Proofs.Lexer.Pending

/-!
# Texts that are laid out differently

Two texts may have the same tokens in different places, or the same but for what their strings hold.
A `Relayout` says what may differ: how strings are rewritten, and which places stand for which. With
it come relations on all that is made of texts and places, from tokens up to whole readings.

Readings correspond if the tokenizers are related by anything that each token keeps
(`Relayout.Simulates`), so that a change of layout is followed one token at a time.

## Main statements

* `Relayout.Simulates.remaining`: what is kept from one token to the next is kept to the end.
-/

namespace JackSyntax

/-- Two results that are both errors or both answers, and related as such. -/
inductive ResultRel {ε ε' α α' : Type} (R : ε → ε' → Prop) (S : α → α' → Prop) :
    Except ε α → Except ε' α' → Prop
  | error {e : ε} {e' : ε'} (h : R e e') : ResultRel R S (.error e) (.error e')
  | ok {a : α} {a' : α'} (h : S a a') : ResultRel R S (.ok a) (.ok a')

/-- Results that are related are so by any weaker relations. -/
theorem ResultRel.imp {ε ε' α α' : Type} {R R' : ε → ε' → Prop} {S S' : α → α' → Prop}
    {x : Except ε α} {x' : Except ε' α'} (h : ResultRel R S x x') (hR : ∀ e e', R e e' → R' e e')
    (hS : ∀ a a', S a a' → S' a a') : ResultRel R' S' x x' := by
  cases h with
  | error h => exact .error (hR _ _ h)
  | ok h => exact .ok (hS _ _ h)

/-- Lists that are related item by item have related items at every place. -/
theorem forall₂_getElem? {α β : Type} {R : α → β → Prop} {l : List α} {l' : List β}
    (h : List.Forall₂ R l l') (n : Nat) : Option.Rel R l[n]? l'[n]? := by
  induction h generalizing n with
  | nil => exact .none
  | cons hfront _ ih =>
    cases n with
    | zero => exact .some hfront
    | succ n => exact ih n

/-- What differs between two layouts. -/
structure Relayout where
  /-- How strings are rewritten. -/
  string : String → String
  /-- Which places of the first layout stand for which of the second. -/
  place : Position → Position → Prop

namespace Relayout

variable (c : Relayout)

/-- The lexeme in the second layout. -/
def lexeme : Lexeme → Lexeme
  | .string value => .string (c.string value)
  | l => l

/-- The tokens have the same lexeme at places that stand for each other. -/
structure Tokens (token token' : Token) : Prop where
  lexeme_eq : token'.lexeme = c.lexeme token.lexeme
  start : c.place token.span.start token'.span.start
  stop : c.place token.span.stop token'.span.stop

/-- The errors have the same cause at places that stand for each other. -/
structure Errors (e e' : LexError) : Prop where
  cause_eq : e'.cause = e.cause
  position : c.place e.position e'.position

/-- The readings have the same tokens and end in the same way. -/
structure Readings (reading reading' : Tokenizer.Reading) : Prop where
  tokens : List.Forall₂ c.Tokens reading.tokens reading'.tokens
  failure : Option.Rel c.Errors reading.failure reading'.failure

/-- The same is answered, and after a token the tokenizers are related. -/
inductive Answers (R : Tokenizer → Tokenizer → Prop) :
    Except LexError (Option Token) × Tokenizer → Except LexError (Option Token) × Tokenizer → Prop
  | error {e e' : LexError} {t t' : Tokenizer} (h : c.Errors e e') :
    Answers R (.error e, t) (.error e', t')
  | none {t t' : Tokenizer} : Answers R (.ok none, t) (.ok none, t')
  | token {token token' : Token} {t t' : Tokenizer} (h : c.Tokens token token') (hrest : R t t') :
    Answers R (.ok (some token), t) (.ok (some token'), t')

/-- Tokenizers that are related give the same answer, and are still related after a token. -/
def Simulates (R : Tokenizer → Tokenizer → Prop) : Prop :=
  ∀ t t', R t t' → c.Answers R t.next t'.next

variable {c}

/-- Related tokens have the same lexemes, but for the change of layout inside strings. -/
theorem map_lexeme_of_tokens {tokens tokens' : List Token}
    (h : List.Forall₂ c.Tokens tokens tokens') :
    tokens'.map Token.lexeme = tokens.map fun token ↦ c.lexeme token.lexeme := by
  induction h with
  | nil => rfl
  | cons htoken _ ih => rw [List.map_cons, List.map_cons, htoken.lexeme_eq, ih]

/-- Related errors have the same cause. -/
theorem map_cause_of_errors {failure failure' : Option LexError}
    (h : Option.Rel c.Errors failure failure') :
    failure'.map LexError.cause = failure.map LexError.cause := by
  cases h with
  | none => rfl
  | some he => exact congrArg some he.cause_eq

/-- What a simulation says of one answer, from the two readings alone. -/
theorem Simulates.answers {R : Tokenizer → Tokenizer → Prop} {t t' : Tokenizer}
    {answer : Except LexError (Option Token) × Tokenizer} (h : c.Simulates R) (hrelated : R t t')
    (hnext : t.next = answer) : ∃ answer', t'.next = answer' ∧ c.Answers R answer answer' :=
  ⟨t'.next, rfl, hnext ▸ h t t' hrelated⟩

/-- Tokenizers that are related read the same to the end. -/
theorem Simulates.remaining {R : Tokenizer → Tokenizer → Prop} {t t' : Tokenizer}
    (h : c.Simulates R) (hrelated : R t t') : c.Readings t.remaining t'.remaining := by
  induction t using Tokenizer.remaining.induct generalizing t' with
  | case1 t token t₁ hnext ih =>
    obtain ⟨answer', hnext', hanswers⟩ := h.answers hrelated hnext
    cases hanswers with
    | token htoken hrest =>
      obtain ⟨htokens, hfailure⟩ := ih hrest
      rw [Tokenizer.remaining_of_token hnext, Tokenizer.remaining_of_token hnext']
      exact ⟨.cons htoken htokens, hfailure⟩
  | case2 t t₁ hnext =>
    obtain ⟨answer', hnext', hanswers⟩ := h.answers hrelated hnext
    cases hanswers with
    | none =>
      rw [Tokenizer.remaining_of_none hnext, Tokenizer.remaining_of_none hnext']
      exact ⟨.nil, .none⟩
  | case3 t e t₁ hnext =>
    obtain ⟨answer', hnext', hanswers⟩ := h.answers hrelated hnext
    cases hanswers with
    | error he =>
      rw [Tokenizer.remaining_of_error hnext, Tokenizer.remaining_of_error hnext']
      exact ⟨.nil, .some he⟩

end Relayout

end JackSyntax
