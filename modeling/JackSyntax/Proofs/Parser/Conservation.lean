import JackSyntax.Parser.Call
import JackSyntax.Proofs.Parser.Step

/-!
# No token is lost

Whatever a session is asked for and however that ends, the terminals among its events are the tokens
consumed so far, in order and each once, and the tokens left are all the others. Every call is a run
of some agenda, and a run moves the session (`Session.moves_run`); only the mark of having been
asked for a class is set by a call and not by a run.

## Main statements

* `Session.performAll_conserves`: the tokens of a text are those consumed and those left, after any
  calls.
-/

namespace JackSyntax

namespace Session

variable {s s' : Session} {tokens : List Token} {events : List Event}

/-- The number of tokens consumed: of those that the tokenizer counted, the ones that do not wait.
-/
def consumed (s : Session) : Nat :=
  s.stream.source.emitted - s.stream.window.length

/-- The mark of having been asked for a class has no part in parsing. -/
theorem Moves.with_used (h : s.Moves s' tokens events) (used : Bool) :
    { s with used }.Moves { s' with used } tokens events where
  pending_eq := h.pending_eq
  failure_eq := h.failure_eq
  events_eq := h.events_eq
  terminals := h.terminals
  count := h.count
  endPosition_eq := h.endPosition_eq
  used_eq := rfl

/-- A move says by itself what the mark is then. -/
theorem Moves.used_self {used : Bool} (h : { s with used }.Moves s' tokens events) :
    { s with used := s'.used }.Moves s' tokens events := by
  have hused : s'.used = used := h.used_eq
  rwa [hused]

/-! ### One call -/

/-- Parsing a class consumes tokens and leaves events, and no more. -/
theorem moves_runClass (s : Session) :
    ∃ tokens events, { s with used := true }.Moves s.runClass.2 tokens events := by
  cases hused : s.used with
  | true =>
    rw [runClass_of_used hused]
    refine ⟨[], [], ?_⟩
    rw [← hused]
    exact Moves.refl s
  | false =>
    rw [runClass_of_fresh hused rfl]
    exact moves_run rfl

/-- So does an attempt at a part of the grammar. -/
theorem moves_attempt (s : Session) (r : Repeatable) :
    ∃ tokens events, s.Moves (s.attempt r).2 tokens events := by
  rw [attempt]
  split
  · rename_i hlook
    exact ⟨[], [], (look_error hlook).2.2⟩
  · rename_i hlook
    have hmoves := (look_ok hlook).2.2
    split
    · obtain ⟨tokens, events, hrest⟩ := moves_run (Prod.eta (run _ [r.item])).symm
      exact ⟨_, _, hmoves.trans hrest⟩
    · exact ⟨[], [], hmoves⟩

/-- A call consumes tokens and appends their events, however it ends. -/
theorem moves_perform (s : Session) (call : Call) :
    ∃ tokens events,
      { s with used := (s.perform call).2.used }.Moves (s.perform call).2 tokens events := by
  cases call with
  | compile =>
    obtain ⟨tokens, events, hmoves⟩ := s.moves_runClass
    exact ⟨tokens, events, hmoves.used_self⟩
  | production p =>
    obtain ⟨tokens, events, hmoves⟩ := moves_run (Prod.eta (s.run p.items)).symm
    exact ⟨tokens, events, hmoves.used_self⟩
  | attempt r =>
    obtain ⟨tokens, events, hmoves⟩ := s.moves_attempt r
    exact ⟨tokens, events, hmoves.used_self⟩

/-- The mark is set by asking for a class, and by nothing else. -/
theorem used_perform (s : Session) (call : Call) :
    (s.perform call).2.used = true ↔ s.used = true ∨ call = .compile := by
  cases call with
  | compile =>
    obtain ⟨tokens, events, hmoves⟩ := s.moves_runClass
    exact iff_of_true hmoves.used_eq (.inr rfl)
  | production p =>
    obtain ⟨tokens, events, hmoves⟩ := moves_run (Prod.eta (s.run p.items)).symm
    have hused : (s.perform (.production p)).2.used = s.used := hmoves.used_eq
    simp [hused]
  | attempt r =>
    obtain ⟨tokens, events, hmoves⟩ := s.moves_attempt r
    have hused : (s.perform (.attempt r)).2.used = s.used := hmoves.used_eq
    simp [hused]

/-! ### Any number of calls -/

theorem performAll_cons (s : Session) (call : Call) (calls : List Call) :
    s.performAll (call :: calls) = (s.perform call).2.performAll calls := rfl

/-- So do any calls, which may also use up the session. -/
theorem moves_performAll (s : Session) (calls : List Call) :
    ∃ tokens events,
      { s with used := (s.performAll calls).used }.Moves (s.performAll calls) tokens events := by
  induction calls generalizing s with
  | nil => exact ⟨[], [], Moves.refl s⟩
  | cons call calls ih =>
    obtain ⟨tokens, events, hmoves⟩ := s.moves_perform call
    obtain ⟨more, later, hrest⟩ := ih (s.perform call).2
    rw [performAll_cons]
    exact ⟨_, _, (hmoves.with_used _).trans hrest⟩

/-- A session is used up by a call for the whole class only. -/
theorem used_performAll (s : Session) (calls : List Call) :
    (s.performAll calls).used = true ↔ s.used = true ∨ .compile ∈ calls := by
  induction calls generalizing s with
  | nil => simp [performAll]
  | cons call calls ih =>
    rw [performAll_cons, ih, used_perform, List.mem_cons, or_assoc, eq_comm (a := call)]

/-- After any calls on a session of a text, however they ended, the terminals among its events are
those of the tokens consumed, which are the first ones of the text, and the others are left. One
more call consumes more tokens or none and appends to the events, and a second call for a class does
nothing at all. -/
theorem performAll_conserves (text : String) (limits : Limits) (calls : List Call) :
    let s := (ofText text limits).performAll calls
    let reading := tokenize text limits
    s.consumed ≤ reading.tokens.length ∧
    s.events.filter Event.isTerminal = (reading.tokens.take s.consumed).map Token.event ∧
    s.pending = reading.tokens.drop s.consumed ∧ s.failure = reading.failure ∧
    (∀ call, s.consumed ≤ (s.perform call).2.consumed ∧
      s.events <+: (s.perform call).2.events) ∧
    (.compile ∈ calls → s.perform .compile = (.error .reused, s)) := by
  intro s reading
  obtain ⟨tokens, events, hmoves⟩ := (ofText text limits).moves_performAll calls
  have htokens : reading.tokens = tokens ++ s.pending := hmoves.pending_eq
  have hevents : s.events = events := hmoves.events_eq
  have hcount : s.stream.source.emitted + 0 = 0 + s.stream.window.length + tokens.length :=
    hmoves.count
  rw [Nat.add_zero, Nat.zero_add] at hcount
  have hconsumed : s.consumed = tokens.length := by
    rw [consumed, hcount, Nat.add_sub_cancel_left]
  rw [hconsumed, htokens, List.take_left, List.drop_left]
  refine ⟨?_, ?_, rfl, hmoves.failure_eq, fun call ↦ ?_, fun hcompile ↦ ?_⟩
  · rw [List.length_append]
    exact Nat.le_add_right _ _
  · rw [hevents]
    exact hmoves.terminals
  · obtain ⟨more, later, hcall⟩ := s.moves_perform call
    refine ⟨?_, ⟨later, hcall.events_eq.symm⟩⟩
    have hmore : (s.perform call).2.stream.source.emitted + s.stream.window.length =
        s.stream.source.emitted + (s.perform call).2.stream.window.length + more.length :=
      hcall.count
    rw [consumed]
    omega
  · have hused : s.used = true := (used_performAll _ _).2 (.inr hcompile)
    rw [perform, runClass_of_used hused]
    rfl

end Session

end JackSyntax
