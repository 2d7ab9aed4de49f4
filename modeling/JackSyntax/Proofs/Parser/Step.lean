import JackSyntax.Parser.Session
import JackSyntax.Proofs.Grammar.Form
import JackSyntax.Proofs.Lexer.Pending

/-!
# What a step of the parser does

All that later modules need to know of `Session.step` and `Session.run`. A session is seen through
the tokens it has left (`Session.pending`), the error after them and the events so far; how far its
stream has been pulled does not show. `Session.Moves` says how one session comes from another:
tokens consumed, events appended, all else as before.

## Main statements

* `advance_of_step`, `halt_of_step`: a step that goes well, and one that fails, case by case.
* `run_induction`: what holds of an empty agenda and of a failing step, and is handed back by a step
  that goes well, holds of every run.
* `moves_run`: a run consumes tokens and appends events, however it ends.
-/

namespace JackSyntax

/-- Whether the event is a terminal. -/
def Event.isTerminal : Event → Bool
  | terminal _ _ => true
  | _ => false

/-- The terminal that a token is in a tree. -/
def Token.event (token : Token) : Event :=
  .ofLexeme token.lexeme

namespace Session

/-- The tokens not yet consumed. -/
def pending (s : Session) : List Token :=
  s.stream.pending

/-- The error that comes after the tokens not yet consumed, if one does. -/
def failure (s : Session) : Option LexError :=
  s.stream.failure

/-- The lexemes not yet consumed. -/
def lexemes (s : Session) : List Lexeme :=
  s.pending.map Token.lexeme

/-- Where no token is pending, no lexeme is. -/
theorem lexemes_of_pending_nil {s : Session} (h : s.pending = []) : s.lexemes = [] := by
  rw [lexemes, h, List.map_nil]

/-- The second session comes from the first by consuming the tokens and appending the events. -/
structure Moves (s s' : Session) (tokens : List Token) (events : List Event) : Prop where
  pending_eq : s.pending = tokens ++ s'.pending
  failure_eq : s'.failure = s.failure
  events_eq : s'.events = s.events ++ events
  /-- Just the tokens consumed leave terminals. -/
  terminals : events.filter Event.isTerminal = tokens.map Token.event
  /-- Of the tokens counted by the tokenizer, those that do not wait are consumed. -/
  count : s'.stream.source.emitted + s.stream.window.length =
    s.stream.source.emitted + s'.stream.window.length + tokens.length
  endPosition_eq : s'.endPosition = s.endPosition
  used_eq : s'.used = s.used

namespace Moves

variable {s s' s'' : Session} {tokens more : List Token} {events later : List Event}

/-- Nothing is moved by doing nothing. -/
theorem refl (s : Session) : s.Moves s [] [] :=
  ⟨rfl, rfl, (List.append_nil _).symm, rfl, rfl, rfl, rfl⟩

/-- Movements in a row add up. -/
theorem trans (h : s.Moves s' tokens events) (h' : s'.Moves s'' more later) :
    s.Moves s'' (tokens ++ more) (events ++ later) where
  pending_eq := by rw [h.pending_eq, h'.pending_eq, List.append_assoc]
  failure_eq := h'.failure_eq.trans h.failure_eq
  events_eq := by rw [h'.events_eq, h.events_eq, List.append_assoc]
  terminals := by rw [List.filter_append, h.terminals, h'.terminals, List.map_append]
  count := by
    have hcount := h.count
    have hcount' := h'.count
    rw [List.length_append]
    omega
  endPosition_eq := h'.endPosition_eq.trans h.endPosition_eq
  used_eq := h'.used_eq.trans h.used_eq

/-- The lexemes of the tokens consumed are gone from those that were pending. -/
theorem lexemes (h : s.Moves s' tokens events) :
    s.lexemes = tokens.map Token.lexeme ++ s'.lexemes := by
  rw [Session.lexemes, h.pending_eq, List.map_append]
  rfl

end Moves

/-! ### Looking ahead -/

/-- Looking ahead answers by what is left and leaves it. -/
theorem moves_look {s s' : Session} {depth : Nat} {answer : Except LexError (Option Token)}
    (h : s.look depth = (answer, s')) :
    answer = TokenStream.ahead s.pending s.failure depth ∧ s.Moves s' [] [] := by
  obtain ⟨rfl, rfl⟩ := Prod.mk.inj h
  have hpulled := s.stream.pulled_peek depth
  exact ⟨s.stream.peek_eq depth, hpulled.pending_eq.symm, hpulled.failure_eq,
    (List.append_nil _).symm, rfl, hpulled.count, rfl, rfl⟩

/-- A parser that looks ahead meets with a lexical error only behind all tokens. -/
theorem look_error {s s' : Session} {depth : Nat} {e : LexError}
    (h : s.look depth = (.error e, s')) :
    s.pending.length ≤ depth ∧ s.failure = some e ∧ s.Moves s' [] [] := by
  obtain ⟨hanswer, hmoves⟩ := moves_look h
  unfold TokenStream.ahead at hanswer
  split at hanswer
  · simp at hanswer
  · rename_i hnone hfailure
    obtain rfl := Except.error.inj hanswer
    exact ⟨List.getElem?_eq_none_iff.1 hnone, hfailure, hmoves⟩
  · simp at hanswer

/-- A parser that looks ahead sees the token there, or that the text ends without an error. -/
theorem look_ok {s s' : Session} {depth : Nat} {answer : Option Token}
    (h : s.look depth = (.ok answer, s')) :
    answer = s.pending[depth]? ∧ (answer = none → s.failure = none) ∧ s.Moves s' [] [] := by
  obtain ⟨hanswer, hmoves⟩ := moves_look h
  unfold TokenStream.ahead at hanswer
  split at hanswer
  · rename_i hsome
    obtain rfl := Except.ok.inj hanswer
    exact ⟨hsome.symm, by simp, hmoves⟩
  · simp at hanswer
  · rename_i hnone hfailure
    obtain rfl := Except.ok.inj hanswer
    exact ⟨hnone.symm, fun _ ↦ hfailure, hmoves⟩

/-! ### Consuming and emitting -/

/-- Consuming a token that waits. -/
theorem moves_consume_of_window {s : Session} {token : Token} {window : List Token}
    (h : s.stream.window = token :: window) :
    s.Moves (s.consume token) [token] [token.event] where
  pending_eq := TokenStream.pending_advance h
  failure_eq := TokenStream.failure_advance h
  events_eq := events_emit _ (.ofLexeme token.lexeme)
  terminals := rfl
  count := by
    show s.stream.advance.2.source.emitted + _ = _ + s.stream.advance.2.window.length + _
    rw [TokenStream.advance_of_window h, h]
    rfl
  endPosition_eq := rfl
  used_eq := rfl

/-- Consuming the token in front. -/
theorem moves_consume {s s' : Session} {token : Token} (h : s.look 0 = (.ok (some token), s')) :
    s.Moves (s'.consume token) [token] [token.event] := by
  obtain ⟨-, -, hlook⟩ := look_ok h
  obtain ⟨hanswer, rfl⟩ := Prod.mk.inj h
  obtain ⟨window, hwindow⟩ := TokenStream.window_peek_zero (Prod.ext hanswer rfl)
  exact hlook.trans (moves_consume_of_window hwindow)

/-- An event that is no terminal consumes no token. -/
theorem moves_emit (s : Session) {e : Event} (he : e.isTerminal = false) :
    s.Moves (s.emit e) [] [e] where
  pending_eq := rfl
  failure_eq := rfl
  events_eq := events_emit s e
  terminals := List.filter_cons_of_neg (by simp [he])
  count := rfl
  endPosition_eq := rfl
  used_eq := rfl

/-- Entering a rule leaves its opening event, if it has one. -/
theorem moves_enter (s : Session) (r : Rule) : s.Moves (s.enter r) [] r.opening := by
  unfold enter Rule.opening
  split
  · exact moves_emit s rfl
  · exact Moves.refl s

/-- Leaving a rule leaves its closing event, if it has one. -/
theorem moves_leave (s : Session) (r : Rule) : s.Moves (s.leave r) [] r.closing := by
  unfold leave Rule.closing
  split
  · exact moves_emit s rfl
  · exact Moves.refl s

end Session

/-! ### A step, case by case -/

/-- How many tokens stand before the one that the item looks at. -/
def Item.depth : Item → Nat
  | choice c => c.depth
  | _ => 0

/-- What the item expects instead of the lexeme it looks at, `none` standing for the end of the
text, if that does not satisfy it. -/
def Item.refusal (ahead : Option Lexeme) : Item → Option Expectation
  | terminal t => if ahead.any t.admits then none else some (.terminal t)
  | choice c =>
    match c.select ahead with
    | .error expected => some expected
    | .ok _ => none
  | finish => if ahead.isSome then some .endOfInput else none
  | rule _ | close _ => none

namespace Session

/-- The item is treated and all goes well: the agenda and the session then. -/
inductive Advance (s : Session) (agenda : List Item) : Item → List Item → Session → Prop
  | terminal {t : Terminal} {token : Token} {s' : Session}
    (hadmits : t.admits token.lexeme = true) (hmoves : s.Moves s' [token] [token.event]) :
    Advance s agenda (.terminal t) agenda s'
  | rule {r : Rule} {s' : Session} (hmoves : s.Moves s' [] r.opening) :
    Advance s agenda (.rule r) (r.body ++ .close r :: agenda) s'
  | close {r : Rule} {s' : Session} (hmoves : s.Moves s' [] r.closing) :
    Advance s agenda (.close r) agenda s'
  | choice {c : Choice} {items : List Item} {s' : Session}
    (hitems : c.select s.lexemes[c.depth]? = .ok items)
    (hend : s.pending.length ≤ c.depth → s.failure = none) (hmoves : s.Moves s' [] []) :
    Advance s agenda (.choice c) (items ++ agenda) s'
  | finish {s' : Session} (hpending : s.pending = []) (hfailure : s.failure = none)
    (hmoves : s.Moves s' [] []) : Advance s agenda .finish agenda s'

/-- The item fails: an error comes where it looks, or it refuses what it looks at. -/
inductive Halt (s : Session) (agenda : List Item) (item : Item) : ParseFailure → Prop
  | lexical {e : LexError} (hdepth : s.pending.length ≤ item.depth)
    (hfailure : s.failure = some e) : Halt s agenda item (.lexical e)
  | token {token : Token} {expected : Expectation} (htoken : s.pending[item.depth]? = some token)
    (hrefusal : item.refusal (some token.lexeme) = some expected) :
    Halt s agenda item (.syntactic ⟨innermostRule agenda, expected, .token token⟩)
  | endOfInput {expected : Expectation} (hdepth : s.pending.length ≤ item.depth)
    (hfailure : s.failure = none) (hrefusal : item.refusal none = some expected) :
    Halt s agenda item
      (.syntactic ⟨innermostRule agenda, expected, .endOfInput s.endPosition⟩)

variable {s s' : Session} {agenda agenda' : List Item} {item : Item} {failure : ParseFailure}

/-- A step that succeeds is one of those in `Advance`. -/
theorem advance_of_step (h : s.step agenda item = (.ok agenda', s')) :
    s.Advance agenda item agenda' s' := by
  cases item with
  | terminal t =>
    simp only [step] at h
    split at h
    · simp at h
    · simp at h
    · rename_i token s₁ hlook
      split at h
      · rename_i hadmits
        obtain ⟨hagenda, rfl⟩ := Prod.mk.inj h
        obtain rfl := Except.ok.inj hagenda
        exact .terminal hadmits (moves_consume hlook)
      · simp at h
  | rule r =>
    obtain ⟨hagenda, rfl⟩ := Prod.mk.inj h
    obtain rfl := Except.ok.inj hagenda
    exact .rule (s.moves_enter r)
  | close r =>
    obtain ⟨hagenda, rfl⟩ := Prod.mk.inj h
    obtain rfl := Except.ok.inj hagenda
    exact .close (s.moves_leave r)
  | choice c =>
    simp only [step] at h
    split at h
    · simp at h
    · rename_i ahead s₁ hlook
      obtain ⟨rfl, hfailure, hmoves⟩ := look_ok hlook
      split at h
      · simp at h
      · rename_i items hitems
        obtain ⟨hagenda, rfl⟩ := Prod.mk.inj h
        obtain rfl := Except.ok.inj hagenda
        rw [← List.getElem?_map] at hitems
        exact .choice hitems (fun hlength ↦ hfailure (List.getElem?_eq_none hlength)) hmoves
  | finish =>
    simp only [step] at h
    split at h
    · simp at h
    · rename_i s₁ hlook
      obtain ⟨hnone, hfailure, hmoves⟩ := look_ok hlook
      obtain ⟨hagenda, rfl⟩ := Prod.mk.inj h
      obtain rfl := Except.ok.inj hagenda
      have hpending : s.pending = [] :=
        List.eq_nil_of_length_eq_zero (Nat.le_zero.1 (List.getElem?_eq_none_iff.1 hnone.symm))
      exact .finish hpending (hfailure rfl) hmoves
    · simp at h

/-- The token found is the one looked at, or the text ends there and no error comes after it. -/
theorem halt_of_look {ahead : Option Token} {expected : Expectation}
    (hlook : s.look item.depth = (.ok ahead, s'))
    (hrefusal : item.refusal (ahead.map Token.lexeme) = some expected) :
    s.Halt agenda item (s'.unexpected agenda expected ahead) ∧ s.Moves s' [] [] := by
  obtain ⟨hahead, hfailure, hmoves⟩ := look_ok hlook
  refine ⟨?_, hmoves⟩
  cases ahead with
  | none =>
    rw [unexpected, hmoves.endPosition_eq]
    exact .endOfInput (List.getElem?_eq_none_iff.1 hahead.symm) (hfailure rfl) hrefusal
  | some token => exact .token hahead.symm hrefusal

/-- A step fails where it cannot look ahead. -/
theorem halt_of_look_error {e : LexError} (hlook : s.look item.depth = (.error e, s')) :
    s.Halt agenda item (.lexical e) ∧ s.Moves s' [] [] := by
  obtain ⟨hdepth, hfailure, hmoves⟩ := look_error hlook
  exact ⟨.lexical hdepth hfailure, hmoves⟩

/-- A step that fails is one of those in `Halt`, and leaves all tokens pending. -/
theorem halt_of_step (h : s.step agenda item = (.error failure, s')) :
    s.Halt agenda item failure ∧ s.Moves s' [] [] := by
  cases item with
  | terminal t =>
    simp only [step] at h
    split at h
    · rename_i e s₁ hlook
      obtain ⟨hfailure, rfl⟩ := Prod.mk.inj h
      obtain rfl := Except.error.inj hfailure
      exact halt_of_look_error hlook
    · rename_i s₁ hlook
      obtain ⟨hfailure, rfl⟩ := Prod.mk.inj h
      obtain rfl := Except.error.inj hfailure
      exact halt_of_look hlook rfl
    · rename_i token s₁ hlook
      split at h
      · simp at h
      · rename_i hadmits
        obtain ⟨hfailure, rfl⟩ := Prod.mk.inj h
        obtain rfl := Except.error.inj hfailure
        exact halt_of_look hlook (if_neg hadmits)
  | rule r => simp [step] at h
  | close r => simp [step] at h
  | choice c =>
    simp only [step] at h
    split at h
    · rename_i e s₁ hlook
      obtain ⟨hfailure, rfl⟩ := Prod.mk.inj h
      obtain rfl := Except.error.inj hfailure
      exact halt_of_look_error hlook
    · rename_i ahead s₁ hlook
      split at h
      · rename_i expected hselect
        obtain ⟨hfailure, rfl⟩ := Prod.mk.inj h
        obtain rfl := Except.error.inj hfailure
        have hrefusal : (Item.choice c).refusal (ahead.map Token.lexeme) = some expected := by
          rw [Item.refusal, hselect]
        exact halt_of_look hlook hrefusal
      · simp at h
  | finish =>
    simp only [step] at h
    split at h
    · rename_i e s₁ hlook
      obtain ⟨hfailure, rfl⟩ := Prod.mk.inj h
      obtain rfl := Except.error.inj hfailure
      exact halt_of_look_error hlook
    · simp at h
    · rename_i token s₁ hlook
      obtain ⟨hfailure, rfl⟩ := Prod.mk.inj h
      obtain rfl := Except.error.inj hfailure
      exact halt_of_look hlook rfl

/-! ### A run -/

theorem run_nil (s : Session) : s.run [] = (.ok (), s) := by
  rw [run]

/-- A run goes on with what a step puts in the place of its item. -/
theorem run_of_step_ok (h : s.step agenda item = (.ok agenda', s')) :
    s.run (item :: agenda) = s'.run agenda' := by
  rw [run]
  split <;> simp_all

/-- A run ends with the failure of a step. -/
theorem run_of_step_error (h : s.step agenda item = (.error failure, s')) :
    s.run (item :: agenda) = (.error failure, s') := by
  rw [run]
  split <;> simp_all

/-- What holds of an empty agenda and of a failing step, and is handed back by a step that goes
well, holds of every run. -/
theorem run_induction {motive : Session → List Item → Except ParseFailure Unit → Session → Prop}
    (nil : ∀ s, motive s [] (.ok ()) s)
    (halt : ∀ {s agenda item failure s'}, s.Halt agenda item failure → s.Moves s' [] [] →
      motive s (item :: agenda) (.error failure) s')
    (advance : ∀ {s agenda item agenda' s' outcome s''}, s.Advance agenda item agenda' s' →
      motive s' agenda' outcome s'' → motive s (item :: agenda) outcome s'')
    (s : Session) (agenda : List Item) {outcome : Except ParseFailure Unit} {s' : Session}
    (h : s.run agenda = (outcome, s')) : motive s agenda outcome s' := by
  induction s, agenda using run.induct with
  | case1 s =>
    obtain ⟨rfl, rfl⟩ := Prod.mk.inj ((run_nil s).symm.trans h)
    exact nil s
  | case2 s item agenda failure s₁ hstep =>
    obtain ⟨rfl, rfl⟩ := Prod.mk.inj ((run_of_step_error hstep).symm.trans h)
    obtain ⟨hhalt, hmoves⟩ := halt_of_step hstep
    exact halt hhalt hmoves
  | case3 s item agenda agenda' s₁ hstep ih =>
    exact advance (advance_of_step hstep) (ih ((run_of_step_ok hstep).symm.trans h))

/-- All that a step does is to consume tokens and to leave events, if any. -/
theorem Advance.moves (h : s.Advance agenda item agenda' s') :
    ∃ tokens events, s.Moves s' tokens events := by
  cases h with
  | terminal _ hmoves => exact ⟨_, _, hmoves⟩
  | rule hmoves => exact ⟨_, _, hmoves⟩
  | close hmoves => exact ⟨_, _, hmoves⟩
  | choice _ _ hmoves => exact ⟨_, _, hmoves⟩
  | finish _ _ hmoves => exact ⟨_, _, hmoves⟩

/-- A run consumes tokens and appends events, however it ends. -/
theorem moves_run {outcome : Except ParseFailure Unit} (h : s.run agenda = (outcome, s')) :
    ∃ tokens events, s.Moves s' tokens events := by
  refine run_induction (motive := fun s _ _ s' ↦ ∃ tokens events, s.Moves s' tokens events)
    ?_ ?_ ?_ s agenda h
  · exact fun s ↦ ⟨[], [], Moves.refl s⟩
  · exact fun _ hmoves ↦ ⟨[], [], hmoves⟩
  · rintro _ _ _ _ _ _ _ hadvance ⟨more, later, hrest⟩
    obtain ⟨tokens, events, hmoves⟩ := hadvance.moves
    exact ⟨tokens ++ more, events ++ later, hmoves.trans hrest⟩

/-! ### The mark of having been asked for a class -/

/-- The mark of having been asked for a class has no part in a step. -/
theorem step_with_used (s : Session) (used : Bool) (agenda : List Item) (item : Item) :
    { s with used }.step agenda item =
      ((s.step agenda item).1, { (s.step agenda item).2 with used }) := by
  have hlook : ∀ depth, { s with used }.look depth =
      ((s.look depth).1, { (s.look depth).2 with used }) := fun _ ↦ rfl
  cases item with
  | terminal t =>
    simp only [step, hlook]
    rcases s.look 0 with ⟨e | (_ | token), s'⟩
    · rfl
    · rfl
    · by_cases hadmits : t.admits token.lexeme = true
      · simp only [if_pos hadmits]
        rfl
      · simp only [if_neg hadmits]
        rfl
  | rule r =>
    simp only [step, enter]
    split <;> rfl
  | close r =>
    simp only [step, leave]
    split <;> rfl
  | choice c =>
    simp only [step, hlook]
    rcases s.look c.depth with ⟨e | ahead, s'⟩
    · rfl
    · cases hselect : c.select (ahead.map Token.lexeme) with
      | error expected =>
        simp only [hselect]
        rfl
      | ok items => simp only [hselect]
  | finish =>
    simp only [step, hlook]
    rcases s.look 0 with ⟨e | (_ | token), s'⟩ <;> rfl

/-- Nor has it in a run. -/
theorem run_with_used (s : Session) (used : Bool) (agenda : List Item) :
    { s with used }.run agenda = ((s.run agenda).1, { (s.run agenda).2 with used }) := by
  induction s, agenda using run.induct with
  | case1 s => rw [run_nil, run_nil]
  | case2 s item agenda failure s' hstep =>
    have hused := s.step_with_used used agenda item
    rw [hstep] at hused
    rw [run_of_step_error hstep, run_of_step_error hused]
  | case3 s item agenda agenda' s' hstep ih =>
    have hused := s.step_with_used used agenda item
    rw [hstep] at hused
    rw [run_of_step_ok hstep, run_of_step_ok hused]
    exact ih

/-! ### A whole class -/

section Outcome

variable {ε ε' α : Type} (f : ε → ε')

@[simp]
theorem mapError_ok (answer : α) : (Except.ok answer).mapError f = .ok answer :=
  rfl

@[simp]
theorem mapError_error (failure : ε) :
    (Except.error failure : Except ε α).mapError f = .error (f failure) :=
  rfl

end Outcome

/-- A session parses a class once only. -/
theorem runClass_of_used (h : s.used = true) : s.runClass = (.error .reused, s) := by
  rw [runClass, if_pos h]

/-- The first time a session is asked for a class, it runs and says how that ended. -/
theorem runClass_of_fresh (h : s.used = false) {outcome : Except ParseFailure Unit}
    (hrun : run { s with used := true } [.rule .classDec, .finish] = (outcome, s')) :
    s.runClass = (outcome.mapError .parse, s') := by
  rw [runClass, if_neg (by simp [h]), hrun]

/-- A fresh session that is asked for a class runs as it would unasked. -/
theorem runClass_eq (h : s.used = false) :
    s.runClass = ((s.run [.rule .classDec, .finish]).1.mapError .parse,
      { (s.run [.rule .classDec, .finish]).2 with used := true }) :=
  runClass_of_fresh h (s.run_with_used true _)

/-- The first time, it answers as the run of its two items does. -/
theorem runClass_of_run_ok (h : s.used = false)
    (hrun : run { s with used := true } [.rule .classDec, .finish] = (.ok (), s')) :
    s.runClass = (.ok (), s') :=
  runClass_of_fresh h hrun

theorem runClass_of_run_error (h : s.used = false)
    (hrun : run { s with used := true } [.rule .classDec, .finish] = (.error failure, s')) :
    s.runClass = (.error (.parse failure), s') :=
  runClass_of_fresh h hrun

/-- The failure of a class is that of its run. -/
theorem run_of_runClass_error (h : s.used = false)
    (hclass : s.runClass.1 = .error (.parse failure)) :
    ∃ s', s.run [.rule .classDec, .finish] = (.error failure, s') := by
  rw [runClass_eq h] at hclass
  rcases hrun : s.run [.rule .classDec, .finish] with ⟨failure' | _, s'⟩
  · rw [hrun] at hclass
    obtain rfl := ClassFailure.parse.inj (Except.error.inj hclass)
    exact ⟨s', rfl⟩
  · simp [hrun] at hclass

end Session

end JackSyntax
