import Mathlib.Logic.Function.Iterate
import JackSyntax.Lexer.Call
import JackSyntax.Proofs.Lexer.Pending

/-!
# A stream is a list that is read lazily

To those who ask it, a stream is the list of all its tokens and the error after them: what it
answers depends on how many tokens were taken before, and on nothing else that was asked. Behind
that it keeps a window, which holds just the tokens that were asked for and not taken.

`MeteredStream` is a stream with an account of its use: how many tokens were taken, how far ahead it
was ever asked to look and how often it asked its tokenizer. The account has no part in what the
stream does (`MeteredStream.stream_performAll`); it is what the window is compared with.

## Main statements

* `window_length_pull`, `asks_eq`: how far a pull goes, and how often it asks.
* `MeteredStream.Agrees.perform`: the account of a stream stays right, whatever is asked.
* `TokenStream.performAll_refines`: after any calls, the answers are those of the list.
-/

namespace JackSyntax

/-- The tokenizer once it has been asked for a token, whatever it answered. -/
def Tokenizer.asked (t : Tokenizer) : Tokenizer :=
  t.next.2

namespace TokenStream

/-! ### Pulling -/

/-- How often a pull asks the tokenizer. -/
def asks : (count : Nat) → TokenStream → Nat
  | 0, _ => 0
  | count + 1, s =>
    if s.exhausted then 0
    else
      match s.source.next with
      | (.ok (some token), source) =>
        asks count { s with source, window := s.window ++ [token] } + 1
      | _ => 1

section Pull

variable {s : TokenStream} {source : Tokenizer} {token : Token} {e : LexError}

/-- Where the tokenizer fails, no token is left but those that wait. -/
theorem pending_of_next_error (hmore : ¬ s.exhausted = true)
    (h : s.source.next = (.error e, source)) : s.pending = s.window ∧ s.failure = some e := by
  rw [pending, failure, if_neg hmore, if_neg hmore, Tokenizer.remaining_of_error h]
  exact ⟨List.append_nil _, rfl⟩

/-- So it is where the tokenizer ends. -/
theorem pending_of_next_none (hmore : ¬ s.exhausted = true)
    (h : s.source.next = (.ok none, source)) : s.pending = s.window ∧ s.failure = none := by
  rw [pending, failure, if_neg hmore, if_neg hmore, Tokenizer.remaining_of_none h]
  exact ⟨List.append_nil _, rfl⟩

theorem window_length_le (s : TokenStream) : s.window.length ≤ s.pending.length :=
  s.window_prefix_pending.length_le

/-- A pull goes as far as it was asked to, or to the last token there is. -/
theorem window_length_pull (s : TokenStream) (count : Nat) :
    (s.pull count).2.window.length = min (s.window.length + count) s.pending.length := by
  have hle := s.window_length_le
  induction count generalizing s with
  | zero =>
    show s.window.length = _
    omega
  | succ count ih =>
    rw [pull]
    split
    · rename_i hexhausted
      rw [pending_of_exhausted hexhausted]
      show s.window.length = _
      omega
    · rename_i hmore
      split
      · rename_i h
        rw [(pending_of_next_error hmore h).1]
        show s.window.length = _
        omega
      · rename_i h
        rw [(pending_of_next_none hmore h).1]
        show s.window.length = _
        omega
      · rename_i token source h
        rw [ih _ (window_length_le _), (pulled_token hmore h).pending_eq, List.length_append,
          List.length_singleton]
        omega

/-- A pull asks once for each token that it brings, and once more if it was asked for more. -/
theorem asks_eq {s : TokenStream} (hmore : ¬ s.exhausted = true) (count : Nat) :
    s.asks count = min count (s.pending.length - s.window.length + 1) := by
  induction count generalizing s with
  | zero => exact (Nat.zero_min _).symm
  | succ count ih =>
    rw [asks, if_neg hmore]
    rcases h : s.source.next with ⟨e | (_ | token), source⟩
    · rw [(pending_of_next_error hmore h).1]
      show 1 = _
      omega
    · rw [(pending_of_next_none hmore h).1]
      show 1 = _
      omega
    · have hpulled := pulled_token hmore h
      have hle := window_length_le { s with source, window := s.window ++ [token] }
      have hrest := ih (s := { s with source, window := s.window ++ [token] }) hmore
      rw [hpulled.pending_eq, List.length_append, List.length_singleton] at hle hrest
      show asks count _ + 1 = _
      omega

/-- An exhausted stream does not ask. -/
theorem asks_of_exhausted {s : TokenStream} (h : s.exhausted = true) (count : Nat) :
    s.asks count = 0 := by
  cases count with
  | zero => rfl
  | succ count => rw [asks, if_pos h]

/-- A pull leaves the tokenizer as asking it so often does. -/
theorem source_pull (s : TokenStream) (count : Nat) :
    (s.pull count).2.source = Tokenizer.asked^[s.asks count] s.source := by
  induction count generalizing s with
  | zero => rfl
  | succ count ih =>
    rw [pull, asks]
    split
    · rfl
    · rcases h : s.source.next with ⟨e | (_ | token), source⟩
      · exact (congrArg Prod.snd h).symm
      · exact (congrArg Prod.snd h).symm
      · have hasked : s.source.asked = source := congrArg Prod.snd h
        show (pull count { s with source, window := s.window ++ [token] }).2.source = _
        rw [ih, Function.iterate_succ_apply, hasked]

/-- A stream is exhausted once a pull goes past a last token that no error follows. -/
theorem exhausted_pull (s : TokenStream) (count : Nat) :
    (s.pull count).2.exhausted = true ↔
      s.exhausted = true ∨ s.failure = none ∧ s.pending.length < s.window.length + count := by
  have hle := s.window_length_le
  induction count generalizing s with
  | zero =>
    refine (or_iff_left ?_).symm
    rintro ⟨-, hlt⟩
    omega
  | succ count ih =>
    rw [pull]
    split
    · rename_i hexhausted
      exact iff_of_true hexhausted (.inl hexhausted)
    · rename_i hmore
      split
      · rename_i h
        refine iff_of_false hmore ?_
        simp [hmore, (pending_of_next_error hmore h).2]
      · rename_i h
        obtain ⟨hpending, hfailure⟩ := pending_of_next_none hmore h
        refine iff_of_true rfl (.inr ⟨hfailure, ?_⟩)
        rw [hpending]
        omega
      · rename_i token source h
        have hpulled := pulled_token hmore h
        have hrest := ih { s with source, window := s.window ++ [token] } (window_length_le _)
        rw [hpulled.pending_eq, hpulled.failure_eq, List.length_append, List.length_singleton,
          Nat.add_assoc, Nat.add_comm 1] at hrest
        exact hrest

end Pull

/-! ### One call -/

/-- How many tokens from the front on a call may look at. -/
def Call.reach : Call → Nat
  | peek depth => depth + 1
  | advance => 1
  | atEnd => 1

/-- How many tokens a call takes where there are as many. -/
def Call.takes : Call → Nat
  | peek _ => 0
  | advance => 1
  | atEnd => 0

/-- How many tokens a call has taken, by its answer. -/
def Call.taken : Call → Except LexError Reply → Nat
  | advance, .ok (.token (some _)) => 1
  | _, _ => 0

/-- What a call is answered where so many of the tokens have been taken. -/
def Call.answer (tokens : List Token) (failure : Option LexError) (taken : Nat) :
    Call → Except LexError Reply
  | peek depth => (ahead tokens failure (taken + depth)).map .token
  | advance => (ahead tokens failure taken).map .token
  | atEnd => (ahead tokens failure taken).map fun token ↦ .ended token.isNone

/-- The stream pulled as far as the call looks. -/
def reached (s : TokenStream) (call : Call) : TokenStream :=
  (s.pull (call.reach - s.window.length)).2

theorem pulled_reached (s : TokenStream) (call : Call) : s.Pulled (s.reached call) :=
  s.pulled_pull _

theorem window_length_reached (s : TokenStream) (call : Call) :
    (s.reached call).window.length = min (max s.window.length call.reach) s.pending.length := by
  rw [reached, window_length_pull]
  omega

theorem snd_peek (s : TokenStream) (depth : Nat) :
    (s.peek depth).2 = s.reached (.peek depth) := by
  rw [peek, fill, reached, Call.reach]
  split <;> rename_i hpull <;> rw [hpull]

/-- The front token is taken if there is one. -/
theorem snd_advance (s : TokenStream) :
    s.advance.2 = { s.reached .advance with window := (s.reached .advance).window.tail } := by
  rw [advance, fill, reached, Call.reach]
  split
  · rename_i e s' hpull
    rw [hpull]
    -- The pull fails only where no token waits, and then it has brought none.
    obtain ⟨-, -, hcount, hlt⟩ := pull_error hpull
    have hwindow : s'.window = [] := List.eq_nil_of_length_eq_zero (by omega)
    rw [hwindow]
    exact congrArg (fun window ↦ { s' with window }) hwindow
  · rename_i hpull
    rw [hpull]

theorem fst_advance (s : TokenStream) : s.advance.1 = (s.peek 0).1 := by
  rw [advance, peek]
  split
  · rfl
  · rw [List.head?_eq_getElem?]

theorem fst_atEnd (s : TokenStream) : s.atEnd.1 = (s.peek 0).1.map Option.isNone := by
  rw [atEnd]
  split <;> rename_i hpeek <;> rw [hpeek] <;> rfl

theorem snd_atEnd (s : TokenStream) : s.atEnd.2 = (s.peek 0).2 := by
  rw [atEnd]
  split <;> rename_i hpeek <;> rw [hpeek]

/-- A call pulls the stream and takes from its window. -/
theorem snd_perform (s : TokenStream) (call : Call) :
    (s.perform call).2 =
      { s.reached call with window := (s.reached call).window.drop call.takes } := by
  cases call with
  | peek depth => exact s.snd_peek depth
  | advance =>
    rw [Call.takes, List.drop_one]
    exact s.snd_advance
  | atEnd => exact s.snd_atEnd.trans (s.snd_peek 0)

/-- Taking from the window takes from the tokens that are left. -/
theorem pending_drop (s : TokenStream) (count : Nat) :
    pending { s with window := s.window.drop count } =
      s.pending.drop (min count s.window.length) := by
  have hdrop : s.window.drop count = s.window.drop (min count s.window.length) := by
    rcases Nat.le_total count s.window.length with hle | hle
    · rw [Nat.min_eq_left hle]
    · rw [Nat.min_eq_right hle, List.drop_length, List.drop_of_length_le hle]
  rw [pending, pending, List.drop_append_of_le_length (Nat.min_le_right _ _), hdrop]

theorem ahead_drop (tokens : List Token) (failure : Option LexError) (taken depth : Nat) :
    ahead (tokens.drop taken) failure depth = ahead tokens failure (taken + depth) := by
  unfold ahead
  rw [List.getElem?_drop]

/-- A call is answered by what is left of the tokens. -/
theorem fst_perform {s : TokenStream} {tokens : List Token} {taken : Nat}
    (hpending : s.pending = tokens.drop taken) (call : Call) :
    (s.perform call).1 = call.answer tokens s.failure taken := by
  have hpeek : ∀ depth, (s.peek depth).1 = ahead tokens s.failure (taken + depth) := by
    intro depth
    rw [peek_eq, hpending, ahead_drop]
  cases call with
  | peek depth => exact congrArg (Except.map Reply.token) (hpeek depth)
  | advance => exact congrArg (Except.map Reply.token) (s.fst_advance.trans (hpeek 0))
  | atEnd =>
    show s.atEnd.1.map Reply.ended = _
    rw [fst_atEnd, hpeek 0, Call.answer, Nat.add_zero]
    cases ahead tokens s.failure taken <;> rfl

/-- An answer tells how many tokens were taken. -/
theorem taken_perform (s : TokenStream) (call : Call) :
    call.taken (s.perform call).1 = min call.takes (s.reached call).window.length := by
  cases call with
  | peek depth => exact (Nat.zero_min _).symm
  | atEnd => exact (Nat.zero_min _).symm
  | advance =>
    have hreply : (s.perform .advance).1 = (ahead s.pending s.failure 0).map .token :=
      congrArg (Except.map Reply.token) (s.fst_advance.trans (s.peek_eq 0))
    have hlength := s.window_length_le
    rw [hreply, window_length_reached, Call.reach, Call.takes]
    cases hpending : s.pending with
    | nil =>
      unfold ahead
      cases s.failure <;> simp [Call.taken, Except.map]
    | cons token tokens =>
      have hfront : ahead (token :: tokens) s.failure 0 = .ok (some token) := rfl
      rw [hfront, List.length_cons]
      show 1 = _
      omega

/-- A call that fails takes nothing, so the tokens that wait stay where they are. -/
theorem window_prefix_of_error {s : TokenStream} {call : Call} {e : LexError}
    (h : (s.perform call).1 = .error e) : s.window <+: (s.perform call).2.window := by
  have htaken := s.taken_perform call
  have hzero : call.taken (.error e) = 0 := by cases call <;> rfl
  rw [h, hzero] at htaken
  have hkeep : (s.reached call).window.drop call.takes = (s.reached call).window := by
    rcases Nat.min_eq_zero_iff.1 htaken.symm with htakes | hwindow
    · rw [htakes, List.drop_zero]
    · rw [List.eq_nil_of_length_eq_zero hwindow, List.drop_nil]
  rw [snd_perform, hkeep]
  have hprefix := (s.reached call).window_prefix_pending
  rw [(s.pulled_reached call).pending_eq] at hprefix
  refine List.prefix_of_prefix_length_le s.window_prefix_pending hprefix ?_
  have hle := s.window_length_le
  rw [window_length_reached]
  omega

end TokenStream

/-! ### The account of a stream -/

/-- A stream with an account of its use. -/
structure MeteredStream where
  /-- The stream. -/
  stream : TokenStream
  /-- The tokens that were taken, as the answers tell. -/
  taken : Nat := 0
  /-- The tokens of the list that a call has looked at, as far as it goes. -/
  demand : Nat := 0
  /-- How often the tokenizer was asked. -/
  asked : Nat := 0

namespace MeteredStream

/-- Makes the call and enters it in the account. -/
def perform (m : MeteredStream) (call : TokenStream.Call) : MeteredStream where
  stream := (m.stream.perform call).2
  taken := m.taken + call.taken (m.stream.perform call).1
  demand := max m.demand (m.taken + call.reach)
  asked := m.asked + m.stream.asks (call.reach - m.stream.window.length)

/-- Makes the calls in turn. -/
def performAll (m : MeteredStream) (calls : List TokenStream.Call) : MeteredStream :=
  calls.foldl perform m

/-- The account has no part in what the stream does. -/
theorem stream_performAll (m : MeteredStream) (calls : List TokenStream.Call) :
    (m.performAll calls).stream = m.stream.performAll calls := by
  induction calls generalizing m with
  | nil => rfl
  | cons call calls ih => exact ih (m.perform call)

/-- The account fits a stream of the tokenizer, of which it tells all. -/
structure Agrees (m : MeteredStream) (t : Tokenizer) : Prop where
  /-- The tokens not taken are left. -/
  pending_eq : m.stream.pending = t.remaining.tokens.drop m.taken
  failure_eq : m.stream.failure = t.remaining.failure
  /-- Just the tokens that were looked at and not taken wait. -/
  held : m.stream.window.length + m.taken = min m.demand t.remaining.tokens.length
  /-- Just the tokens that were looked at have been read. -/
  emitted : m.stream.source.emitted = t.emitted + min m.demand t.remaining.tokens.length
  exhausted_iff : m.stream.exhausted = true ↔
    t.remaining.failure = none ∧ t.remaining.tokens.length < m.demand
  /-- The tokenizer is asked once for each token, and once at its end. -/
  asked_eq : m.demand ≤ t.remaining.tokens.length ∨ t.remaining.failure = none →
    m.asked = min m.demand (t.remaining.tokens.length + 1)
  /-- It is asked beyond its last token if more was looked for. -/
  lt_asked : t.remaining.tokens.length < m.demand → t.remaining.tokens.length < m.asked
  source_eq : m.stream.source = Tokenizer.asked^[m.asked] t

variable {m : MeteredStream} {t : Tokenizer}

theorem agrees_fresh (t : Tokenizer) : Agrees { stream := { source := t } } t where
  pending_eq := rfl
  failure_eq := rfl
  held := (Nat.zero_min _).symm
  emitted := by rw [Nat.zero_min, Nat.add_zero]
  exhausted_iff := by simp
  asked_eq := fun _ ↦ (Nat.zero_min _).symm
  lt_asked := fun h ↦ absurd h (Nat.not_lt_zero _)
  source_eq := rfl

theorem Agrees.length_pending (h : m.Agrees t) :
    m.stream.pending.length + m.taken = t.remaining.tokens.length := by
  have hheld := h.held
  rw [h.pending_eq, List.length_drop]
  omega

/-- How often a call asks, as long as the tokenizer has not ended and no more is asked for than it
has, or it ends without an error. -/
theorem Agrees.asked_add_asks (h : m.Agrees t) {reach : Nat}
    (hreach : max m.demand (m.taken + reach) ≤ t.remaining.tokens.length ∨
      t.remaining.failure = none) :
    m.asked + m.stream.asks (reach - m.stream.window.length) =
      min (max m.demand (m.taken + reach)) (t.remaining.tokens.length + 1) := by
  have hlength := h.length_pending
  have hheld := h.held
  by_cases hmore : m.stream.exhausted = true
  · obtain ⟨hnone, hlt⟩ := h.exhausted_iff.1 hmore
    have hasked := h.asked_eq (.inr hnone)
    rw [TokenStream.asks_of_exhausted hmore]
    omega
  · have hle : m.demand ≤ t.remaining.tokens.length := by
      rcases hreach with hle | hnone
      · omega
      · exact Nat.le_of_not_lt fun hlt ↦ hmore (h.exhausted_iff.2 ⟨hnone, hlt⟩)
    have hasked := h.asked_eq (.inl hle)
    rw [TokenStream.asks_eq hmore]
    omega

/-- Whoever looks beyond the last token has the tokenizer asked beyond it. -/
theorem Agrees.lt_asked_add_asks (h : m.Agrees t) {reach : Nat}
    (hreach : t.remaining.tokens.length < max m.demand (m.taken + reach)) :
    t.remaining.tokens.length < m.asked + m.stream.asks (reach - m.stream.window.length) := by
  have hlength := h.length_pending
  have hheld := h.held
  by_cases hlt : t.remaining.tokens.length < m.demand
  · have hasked := h.lt_asked hlt
    omega
  · have hmore : ¬ m.stream.exhausted = true := fun hexhausted ↦
      hlt (h.exhausted_iff.1 hexhausted).2
    have hasked := h.asked_eq (.inl (Nat.le_of_not_lt hlt))
    rw [TokenStream.asks_eq hmore]
    omega

/-- The account stays right, whatever is asked. -/
theorem Agrees.perform (h : m.Agrees t) (call : TokenStream.Call) : (m.perform call).Agrees t := by
  have hlength := h.length_pending
  have hheld := h.held
  have hpulled := m.stream.pulled_reached call
  have hwindow := m.stream.window_length_reached call
  have htaken := m.stream.taken_perform call
  have hstream := m.stream.snd_perform call
  exact {
    pending_eq := by
      rw [MeteredStream.perform, hstream, htaken, TokenStream.pending_drop, hpulled.pending_eq,
        h.pending_eq, List.drop_drop]
    failure_eq := by
      rw [MeteredStream.perform, hstream]
      exact hpulled.failure_eq.trans h.failure_eq
    held := by
      simp only [MeteredStream.perform, hstream, htaken, List.length_drop]
      omega
    emitted := by
      have hcount := hpulled.count
      have hemitted := h.emitted
      simp only [MeteredStream.perform, hstream]
      omega
    exhausted_iff := by
      have hexhausted := m.stream.exhausted_pull (call.reach - m.stream.window.length)
      rw [h.failure_eq, h.exhausted_iff, ← and_or_left] at hexhausted
      simp only [MeteredStream.perform, hstream]
      refine hexhausted.trans (and_congr_right fun _ ↦ ?_)
      omega
    asked_eq := h.asked_add_asks
    lt_asked := h.lt_asked_add_asks
    source_eq := by
      have hsource := m.stream.source_pull (call.reach - m.stream.window.length)
      rw [h.source_eq, ← Function.iterate_add_apply, Nat.add_comm] at hsource
      rw [MeteredStream.perform, hstream]
      exact hsource }

theorem Agrees.performAll (h : m.Agrees t) (calls : List TokenStream.Call) :
    (m.performAll calls).Agrees t := by
  induction calls generalizing m with
  | nil => exact h
  | cons call calls ih => exact ih (h.perform call)

/-- The tokens that wait are those that were looked at and not taken. -/
theorem Agrees.window_eq (h : m.Agrees t) :
    m.stream.window =
      (t.remaining.tokens.take (min m.demand t.remaining.tokens.length)).drop m.taken := by
  have hprefix := List.prefix_iff_eq_take.1 m.stream.window_prefix_pending
  rw [h.pending_eq, List.take_drop, Nat.add_comm, h.held] at hprefix
  exact hprefix

/-- A call never looks further ahead of the tokens taken than it says. -/
theorem demand_performAll_le {calls : List TokenStream.Call} {depth : Nat}
    (hdepth : ∀ call ∈ calls, call.reach ≤ depth) (h : m.demand ≤ m.taken + depth) :
    (m.performAll calls).demand ≤ (m.performAll calls).taken + depth := by
  induction calls generalizing m with
  | nil => exact h
  | cons call calls ih =>
    obtain ⟨hcall, hcalls⟩ := List.forall_mem_cons.1 hdepth
    refine ih hcalls ?_
    show max m.demand (m.taken + call.reach) ≤ m.taken + _ + depth
    omega

end MeteredStream

/-! ### A whole text -/

namespace TokenStream

/-- A stream of a text that is asked for anything, in any order and after any failure, answers as
the list of the tokens of the text and the error after them does. A call that fails leaves the
tokens that wait. Just the tokens that were looked at so far have been read, as far as there are as
many, and those of them not taken wait, which are no more than some call looks ahead. The tokenizer
is asked once for each token that was looked at, and it is asked for more if and only if more than
there are were looked for. -/
theorem performAll_refines (text : String) (limits : Limits) (calls : List Call) :
    let reading := tokenize text limits
    let s := (ofText text limits).performAll calls
    let m := MeteredStream.performAll { stream := ofText text limits } calls
    m.stream = s ∧ m.taken ≤ reading.tokens.length ∧
    (∀ call, (s.perform call).1 = call.answer reading.tokens reading.failure m.taken ∧
      ∀ e, (s.perform call).1 = .error e → s.window <+: (s.perform call).2.window) ∧
    s.source.emitted = min m.demand reading.tokens.length ∧
    s.window = (reading.tokens.take (min m.demand reading.tokens.length)).drop m.taken ∧
    (∀ depth, (∀ call ∈ calls, call.reach ≤ depth) → s.window.length ≤ depth) ∧
    s.source = Tokenizer.asked^[m.asked] (Tokenizer.ofText text limits) ∧
    (m.demand ≤ reading.tokens.length → m.asked = m.demand) ∧
    (reading.tokens.length < m.asked ↔ reading.tokens.length < m.demand) := by
  intro reading s m
  have hagrees : m.Agrees (Tokenizer.ofText text limits) :=
    (MeteredStream.agrees_fresh _).performAll calls
  have hstream : m.stream = s := MeteredStream.stream_performAll _ calls
  have hemitted := hagrees.emitted
  have hheld := hagrees.held
  have hwindow := hagrees.window_eq
  have hsource := hagrees.source_eq
  rw [hstream] at hemitted hheld hwindow hsource
  refine ⟨hstream, ?_, fun call ↦ ⟨?_, fun e ↦ window_prefix_of_error⟩, ?_, hwindow, ?_, hsource,
    ?_, ?_⟩
  · show m.taken ≤ (Tokenizer.ofText text limits).remaining.tokens.length
    omega
  · have hpending := hagrees.pending_eq
    have hfailure := hagrees.failure_eq
    rw [hstream] at hpending hfailure
    rw [fst_perform hpending, hfailure]
    rfl
  · rw [hemitted]
    exact Nat.zero_add _
  · intro depth hdepth
    have hdemand : m.demand ≤ m.taken + depth :=
      MeteredStream.demand_performAll_le hdepth (Nat.zero_le _)
    omega
  · intro hle
    rw [hagrees.asked_eq (.inl hle)]
    exact Nat.min_eq_left (Nat.le_succ_of_le hle)
  · constructor
    · intro hlt
      refine Nat.lt_of_not_le fun hle ↦ ?_
      rw [hagrees.asked_eq (.inl hle)] at hlt
      exact absurd (Nat.le_trans (Nat.min_le_left _ _) hle) (Nat.not_le.2 hlt)
    · exact hagrees.lt_asked

end TokenStream

end JackSyntax
