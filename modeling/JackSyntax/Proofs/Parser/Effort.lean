import Mathlib.Control.Monad.Basic
import JackSyntax.Proofs.Lexer.Ceiling
import JackSyntax.Proofs.Parser.Progress

/-!
# The effort of a parse

How many steps a parse takes, and so how many events it leaves, is bounded by the tokens that it
consumes. Not every step can be charged to the token before it or after it: the statements of an
empty block open and close without one, and one token may be followed by the ends of any number of
rules. So each token pays for nine steps, and the steps are charged to the items of the agenda. What
an item leaves of the payment for its tokens (`Item.surplus`) pays for the items after it.

## Main statements

* `Item.Becomes.effort_lt`: what takes the place of an item is less effort by the step it took.
* `Session.Leads.effort_le`: the effort that is left, with the steps taken, is no more than the
  effort at first and nine for each token consumed.
* `Session.runClass_linear`: a parse ends, and is linear in the tokens that it consumes.
-/

namespace JackSyntax

variable {item : Item} {items items' agenda : List Item}

/-! ### Effort -/

/-- What the item leaves, at the least, of nine steps for each token it consumes. -/
def Item.surplus : Item → Nat
  | terminal _ => 8
  | rule .parameterList | rule .statements | rule .expressionList => 0
  | rule .expression => 1
  | rule .term => 3
  | rule _ => 4
  | close _ | finish => 0
  | choice .statement | choice .term | choice .nameTerm => 4
  | choice _ => 0

/-- The steps that the agenda takes beyond nine for each token it consumes, at the most and wherever
it fails. -/
def effort : List Item → Nat
  | [] => 0
  | item :: agenda => item.cost + (effort agenda - item.surplus)

theorem effort_terminal (t : Terminal) (agenda : List Item) :
    effort agenda ≤ effort (.terminal t :: agenda) + 8 := by
  simp only [effort, Item.cost, Item.surplus]
  omega

theorem effort_body (r : Rule) (agenda : List Item) :
    effort (r.body ++ [.close r] ++ agenda) < effort (.rule r :: agenda) := by
  cases r <;>
    simp [Rule.body, Item.parenthesized, Item.block, effort, Item.cost, Item.surplus] <;> omega

theorem effort_selections (c : Choice) (agenda : List Item) :
    ∀ selected ∈ c.selections, effort (selected ++ agenda) < effort (.choice c :: agenda) := by
  cases c with
  | many r =>
    cases r <;>
      simp [Choice.selections, Choice.part, Repeatable.item, effort, Item.cost, Item.surplus] <;>
      omega
  | _ =>
    simp [Choice.selections, Choice.part, Item.parenthesized, Item.block, effort, Item.cost,
      Item.surplus] <;> omega

/-- What takes the place of an item is less effort by the step it took. -/
theorem Item.Becomes.effort_lt (h : item.Becomes items) (agenda : List Item) :
    effort (items ++ agenda) < effort (item :: agenda) := by
  cases h with
  | rule r => exact effort_body r agenda
  | close r => simp [effort, Item.cost, Item.surplus]
  | @choice c _ hselected => exact effort_selections c agenda _ hselected
  | finish => simp [effort, Item.cost, Item.surplus]

namespace Session

variable {s s₁ s' : Session} {n : Nat} {outcome : Except ParseFailure Unit}

/-- A step costs one, and a token that is consumed pays for it. -/
theorem Advance.effort_lt {agenda' : List Item} (h : s.Advance agenda item agenda' s') :
    ∃ tokens events, s.Moves s' tokens events ∧ events.length ≤ 1 ∧
      1 + effort agenda' ≤ effort (item :: agenda) + 9 * tokens.length := by
  rcases h.consumes_or_becomes with
    ⟨t, token, rfl, rfl, hmoves⟩ | ⟨new, events, hnew, rfl, hmoves, hevents⟩
  · refine ⟨[token], _, hmoves, Nat.le_refl 1, ?_⟩
    have hterminal := effort_terminal t agenda'
    rw [List.length_singleton]
    omega
  · refine ⟨[], events, hmoves, hevents, ?_⟩
    have hnew := hnew.effort_lt agenda
    rw [List.length_nil]
    omega

/-- Steps in a row are paid for by the effort at first and the tokens consumed. -/
theorem Leads.effort_le (h : Leads agenda n s items s' items') :
    ∃ tokens events, s.Moves s' tokens events ∧ events.length ≤ n ∧
      n + effort (items' ++ agenda) ≤ effort (items ++ agenda) + 9 * tokens.length := by
  induction h with
  | refl s items => exact ⟨[], [], Moves.refl s, Nat.le_refl 0, by simp⟩
  | step hstep _ ih =>
    obtain ⟨tokens, events, hmoves, hevents, hle⟩ := (advance_of_step hstep).effort_lt
    obtain ⟨more, later, hmore, hlater, hrest⟩ := ih
    refine ⟨_, _, hmoves.trans hmore, ?_, ?_⟩
    · rw [List.length_append]
      omega
    · rw [List.length_append, List.cons_append]
      omega

/-! ### Runs that end -/

/-- The items of the agenda are treated one after the other, and after so many steps none is left or
the next one fails. -/
inductive Ends (s : Session) (agenda : List Item) (n : Nat) :
    Except ParseFailure Unit → Session → Prop
  | done {s' : Session} (hleads : Leads [] n s agenda s' []) : Ends s agenda n (.ok ()) s'
  | halt {s₁ s' : Session} {item : Item} {rest : List Item} {failure : ParseFailure}
    (hleads : Leads [] n s agenda s₁ (item :: rest))
    (hstep : s₁.step rest item = (.error failure, s')) : Ends s agenda n (.error failure) s'

theorem Ends.step {agenda' : List Item} (hstep : s.step agenda item = (.ok agenda', s₁))
    (h : s₁.Ends agenda' n outcome s') : s.Ends (item :: agenda) (n + 1) outcome s' := by
  cases h with
  | done hleads => exact .done (hleads.cons hstep)
  | halt hleads hstop => exact .halt (hleads.cons hstep) hstop

/-- Every run ends. -/
theorem exists_ends (s : Session) (agenda : List Item) :
    ∃ n, s.Ends agenda n (s.run agenda).1 (s.run agenda).2 := by
  induction s, agenda using run.induct with
  | case1 s =>
    rw [run_nil]
    exact ⟨0, .done (.refl s [])⟩
  | case2 s item agenda failure s' hstep =>
    rw [run_of_step_error hstep]
    exact ⟨0, .halt (.refl s (item :: agenda)) hstep⟩
  | case3 s item agenda agenda' s₁ hstep ih =>
    rw [run_of_step_ok hstep]
    obtain ⟨n, hends⟩ := ih
    exact ⟨n + 1, hends.step hstep⟩

/-- A run takes no more steps than its agenda is effort and its tokens pay for, and leaves no more
events than it takes steps. -/
theorem Ends.effort_le (h : s.Ends agenda n outcome s') :
    ∃ tokens events, s.Moves s' tokens events ∧ events.length ≤ n ∧
      n ≤ effort agenda + 9 * tokens.length := by
  cases h with
  | done hleads =>
    obtain ⟨tokens, events, hmoves, hevents, hle⟩ := hleads.effort_le
    simp only [List.append_nil] at hle
    exact ⟨tokens, events, hmoves, hevents, by omega⟩
  | halt hleads hstep =>
    obtain ⟨tokens, events, hmoves, hevents, hle⟩ := hleads.effort_le
    have hlast := hmoves.trans (halt_of_step hstep).2
    simp only [List.append_nil] at hlast hle
    exact ⟨tokens, events, hlast, hevents, by omega⟩

/-- Parsing a text ends, and what it leaves is linear in what it consumes. The text has no more
tokens than characters. A list goes round once more only after a token is consumed, and so does a
production that is begun inside itself. All steps are over after nine for each token consumed, and
nine more, however the parse ends, and there are no more events than that. -/
theorem runClass_linear (text : String) (limits : Limits) :
    (tokenize text limits).tokens.length ≤ text.toList.length ∧
    (∀ {agenda items : List Item} {n : Nat} {s s' : Session} (c : Choice),
      Leads agenda (n + 1) s [.choice c] s' (.choice c :: items) →
      s'.pending.length < s.pending.length) ∧
    (∀ {agenda items : List Item} {n : Nat} {s s' : Session} (p : Production),
      Leads agenda (n + 1) s p.items s' (p.items ++ items) →
      s'.pending.length < s.pending.length) ∧
    ∃ n outcome s' tokens,
      Ends { ofText text limits with used := true } [.rule .classDec, .finish] n outcome s' ∧
      (ofText text limits).runClass = (outcome.mapError .parse, s') ∧
      (tokenize text limits).tokens = tokens ++ s'.pending ∧
      n ≤ 9 * (tokens.length + 1) ∧ s'.events.length ≤ 9 * (tokens.length + 1) := by
  refine ⟨(length_tokens_le text limits).1, fun c h ↦ h.pending_lt,
    fun p h ↦ h.pending_lt_of_production p, ?_⟩
  obtain ⟨n, hends⟩ := exists_ends { ofText text limits with used := true }
    [.rule .classDec, .finish]
  obtain ⟨tokens, events, hmoves, hevents, hle⟩ := hends.effort_le
  have hstart : effort [.rule .classDec, .finish] = 1 := rfl
  refine ⟨n, _, _, tokens, hends, runClass_of_fresh rfl rfl, hmoves.pending_eq, by omega, ?_⟩
  have hnew : (run { ofText text limits with used := true } [.rule .classDec, .finish]).2.events =
      events := hmoves.events_eq
  rw [hnew]
  omega

/-- A term begins inside a term once the sign before it is consumed. -/
theorem runClass_linear_sign :
    ∃ s', Leads [] 3 (ofText "-1" {}) [.rule .term] s' [.rule .term, .close .term] ∧
      s'.pending.length < (ofText "-1" {}).pending.length := by
  let s := ofText "-1" {}
  let s₁ := (s.step [] (.rule .term)).2
  let s₂ := (s₁.step [.close .term] (.choice .term)).2
  let s₃ := (s₂.step [.rule .term, .close .term] .shift).2
  have hrule : s.step [] (.rule .term) = (.ok [.choice .term, .close .term], s₁) := rfl
  have hchoice : s₁.step [.close .term] (.choice .term) =
      (.ok [.shift, .rule .term, .close .term], s₂) :=
    Prod.ext (by unfold s₁ s; decide +kernel) rfl
  have hshift : s₂.step [.rule .term, .close .term] .shift =
      (.ok [.rule .term, .close .term], s₃) :=
    Prod.ext (by unfold s₂ s₁ s; decide +kernel) rfl
  have hleads : Leads [] 3 s [.rule .term] s₃ [.rule .term, .close .term] :=
    (((Leads.refl s₃ _).cons hshift).cons hchoice).cons hrule
  exact ⟨s₃, hleads, (runClass_linear "-1" {}).2.2.1 (.rule .term) hleads⟩

end Session

end JackSyntax
