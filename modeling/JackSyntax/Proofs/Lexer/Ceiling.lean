import JackSyntax.Proofs.Lexer.Segmentation

/-!
# The limit on tokens

A tokenizer asks for its limit on tokens before it reads one, and at no other time. So a lower limit
cuts the tokens short and changes none of them, and an error is met unless the limit is reached
before it (`Tokenizer.remaining_capped`). A limit that is not below the number of characters cuts
nothing off, since every token takes at least one (`Limits.suffices_of_length_le`).

## Main statements

* `Tokenizer.remaining_capped`, `tokenize_capped`: what is read under a lower limit.
* `length_tokens_le`: there are no more tokens than characters.
-/

namespace JackSyntax

/-- The same bounds with another limit on tokens. -/
def Limits.capped (limits : Limits) (maxTokens : Int) : Limits :=
  { limits with maxTokens }

/-- No higher limit on tokens changes what is read of the text. -/
def Limits.Suffices (limits : Limits) (text : String) : Prop :=
  ∀ k, limits.maxTokens ≤ k →
    (tokenize text (limits.capped k)).tokens = (tokenize text limits).tokens ∧
      (tokenize text (limits.capped k)).failure = (tokenize text limits).failure

namespace Tokenizer

variable {t t' : Tokenizer} {k : Int} {answer : Except LexError (Option Token)}

/-- The tokenizer with another limit on tokens. -/
def capped (t : Tokenizer) (maxTokens : Int) : Tokenizer :=
  { t with limits := t.limits.capped maxTokens }

/-- As long as neither limit is reached, it does not matter which of them there is. -/
theorem Answers.capped (h : t.Answers answer t') (hspent : ¬ t.limits.maxTokens ≤ t.emitted)
    (hk : ¬ k ≤ t.emitted) : (t.capped k).Answers answer (t'.capped k) := by
  have hcapped : ¬ (t.capped k).isSpent = true := mt isSpent_iff.1 hk
  cases h with
  | spent h => exact absurd (isSpent_iff.1 h) hspent
  | ended _ hrest => exact .ended hcapped hrest
  | failed _ hrest hscan => exact .failed hcapped hrest hscan
  | token _ hrest hscan => exact .token hcapped hrest hscan

theorem next_capped (h : t.next = (answer, t')) (hspent : ¬ t.limits.maxTokens ≤ t.emitted)
    (hk : ¬ k ≤ t.emitted) : (t.capped k).next = (answer, t'.capped k) :=
  next_of_answers ((answers_of_next h).capped hspent hk)

end Tokenizer

namespace Tokenizer.Reading

variable {short long : Reading} {count : Int}

/-- The first reading stops after so many tokens of the second, and does not meet its error unless
that comes before. -/
structure Cuts (short long : Reading) (count : Int) : Prop where
  tokens_eq : short.tokens = long.tokens.take count.toNat
  failure_eq : short.failure = if (long.tokens.length : Int) < count then long.failure else none

theorem cuts_of_nonpos {last : Tokenizer} (h : count ≤ 0) : Cuts ⟨[], none, last⟩ long count where
  tokens_eq := by rw [Int.toNat_of_nonpos h, List.take_zero]
  failure_eq := (if_neg (by omega)).symm

theorem cuts_of_nil {last last' : Tokenizer} {failure : Option LexError} (h : 0 < count) :
    Cuts ⟨[], failure, last⟩ ⟨[], failure, last'⟩ count where
  tokens_eq := List.take_nil.symm
  failure_eq := (if_pos h).symm

theorem Cuts.cons (h : short.Cuts long count) (hcount : 0 ≤ count) (token : Token) :
    (short.cons token).Cuts (long.cons token) (count + 1) where
  tokens_eq := by
    have hsucc : (count + 1).toNat = count.toNat + 1 := by omega
    simp only [Reading.cons, h.tokens_eq, hsucc, List.take_succ_cons]
  failure_eq := by
    have hlength : ((long.cons token).tokens.length : Int) < count + 1 ↔
        (long.tokens.length : Int) < count := by
      simp only [Reading.cons, List.length_cons]
      omega
    simp only [hlength]
    exact h.failure_eq

end Tokenizer.Reading

namespace Tokenizer

variable {t : Tokenizer} {k : Int}

/-- Once the limit is reached nothing more is read. -/
theorem remaining_of_le (h : t.limits.maxTokens ≤ t.emitted) : t.remaining = ⟨[], none, t⟩ :=
  remaining_of_none (next_of_answers (.spent (isSpent_iff.2 h)))

/-- A lower limit cuts the reading short. -/
theorem remaining_capped (t : Tokenizer) (hk : k ≤ t.limits.maxTokens) :
    (t.capped k).remaining.Cuts t.remaining (k - t.emitted) := by
  have hreached : ∀ t : Tokenizer, k ≤ t.emitted →
      (t.capped k).remaining.Cuts t.remaining (k - t.emitted) := by
    intro t hle
    rw [remaining_of_le (t := t.capped k) hle]
    exact Reading.cuts_of_nonpos (by omega)
  induction t using remaining.induct with
  | case1 t token t' h ih =>
    by_cases hle : k ≤ t.emitted
    · exact hreached t hle
    · have hemitted := emitted_of_token h
      have hcount : k - t.emitted = k - t'.emitted + 1 := by omega
      obtain ⟨gap, spelling, hreads⟩ := reads_of_next h
      rw [remaining_of_token h, remaining_of_token (next_capped h (by omega) hle), hcount]
      exact (ih (by rwa [hreads.limits])).cons (by omega) token
  | case2 t t' h =>
    by_cases hle : k ≤ t.emitted
    · exact hreached t hle
    · rw [remaining_of_none h, remaining_of_none (next_capped h (by omega) hle)]
      exact Reading.cuts_of_nil (by omega)
  | case3 t e t' h =>
    by_cases hle : k ≤ t.emitted
    · exact hreached t hle
    · rw [remaining_of_error h, remaining_of_error (next_capped h (by omega) hle)]
      exact Reading.cuts_of_nil (by omega)

end Tokenizer

/-! ### A whole text -/

section Text

variable {text : String} {limits : Limits} {k : Int}

/-- A lower limit cuts the reading of a text short. -/
theorem tokenize_capped (text : String) (limits : Limits) (hk : k ≤ limits.maxTokens) :
    (tokenize text (limits.capped k)).Cuts (tokenize text limits) k := by
  have h := (Tokenizer.ofText text limits).remaining_capped hk
  rwa [show k - ((Tokenizer.ofText text limits).emitted : Int) = k from Int.sub_zero k] at h

/-- Every token takes at least one character. -/
theorem Segmented.length_le {maximum : Int} {offset : Nat} {chars remainder : List Char}
    {tokens : List Token} (h : Segmented maximum offset chars tokens remainder) :
    tokens.length + remainder.length ≤ chars.length := by
  induction h with
  | nil => simp
  | cons _ _ hspelled _ _ _ ih =>
    have hpos := List.length_pos_iff.2 hspelled.ne_nil
    simp only [List.length_append, List.length_cons]
    omega

/-- Something is left where an error is met. -/
theorem Remains.ne_nil {maximum endOffset : Int} {spent : Prop} {failure : Option LexError}
    {remainder : List Char} (h : Remains maximum endOffset spent failure remainder)
    (hfailure : failure ≠ none) : remainder ≠ [] := by
  cases h with
  | trivia _ => exact absurd rfl hfailure
  | spent _ => exact absurd rfl hfailure
  | fault _ _ _ hne _ _ => exact List.append_ne_nil_of_right_ne_nil _ hne

/-- There are no more tokens than characters, and fewer if an error comes after them. -/
theorem length_tokens_le (text : String) (limits : Limits) :
    (tokenize text limits).tokens.length ≤ text.toList.length ∧
      ((tokenize text limits).failure ≠ none →
        (tokenize text limits).tokens.length < text.toList.length) := by
  obtain ⟨remainder, hsegmented, hremains⟩ := (Tokenizer.ofText text limits).remaining_segmented
  have hle : (tokenize text limits).tokens.length + remainder.length ≤ text.toList.length :=
    hsegmented.length_le
  refine ⟨by omega, fun hfailure ↦ ?_⟩
  have hpos := List.length_pos_iff.2 (hremains.ne_nil hfailure)
  omega

/-- A limit that is not below the number of characters cuts nothing off. -/
theorem Limits.suffices_of_length_le (h : (text.toList.length : Int) ≤ limits.maxTokens) :
    limits.Suffices text := by
  intro k hk
  obtain ⟨htokens, hfailure⟩ := tokenize_capped text (limits.capped k) hk
  obtain ⟨hle, hlt⟩ := length_tokens_le text (limits.capped k)
  have hsame : (limits.capped k).capped limits.maxTokens = limits := rfl
  rw [hsame] at htokens hfailure
  rw [htokens, hfailure]
  refine ⟨(List.take_of_length_le (by omega)).symm, ?_⟩
  split
  · rfl
  · rename_i hge
    exact Decidable.by_contra fun hne ↦ hge (by have := hlt hne; omega)

end Text

end JackSyntax
