import JackSyntax.Proofs.Parser.Acceptance
import JackSyntax.Proofs.Parser.Conservation

/-!
# The stack of rules

A session keeps no stack of the rules it is in: the closing items of its agenda say which they are.
`Scoped` keeps the stack on its own. A rule is put on it as it begins and taken off as it ends, and
a syntax error names the top of it. A failure takes off the rules that it passes through on its way
out, one for each closing item that is still on the agenda.

## Main statements

* `Session.Advance.onStack`: a step changes the stack as it changes the closing items of the agenda.
* `Scoped.run_plain`, `Scoped.perform_plain`: the stack is a mere record. With it or without, a
  session goes the same way and errors name the same rule.
-/

namespace JackSyntax

/-- The rules begun and not ended, the innermost first. -/
def rulesInForce (agenda : List Item) : List Rule :=
  agenda.filterMap Item.closes?

/-- The stack of rules after the item, which may begin a rule or end one. -/
def Item.onStack (rules : List Rule) : Item → List Rule
  | rule r => r :: rules
  | close _ => rules.tail
  | _ => rules

/-- The failure met within the rule. -/
def ParseFailure.within (rule : Option Rule) : ParseFailure → ParseFailure
  | .lexical e => .lexical e
  | .syntactic e => .syntactic { e with rule }

/-- A session with the stack of the rules it is in, the innermost first. -/
structure Scoped where
  /-- The session. -/
  session : Session
  /-- The stack. -/
  rules : List Rule := []

namespace Scoped

/-- A failed call, and the rules in force where it failed. -/
structure Raised where
  /-- Why it failed. -/
  failure : Session.ClassFailure
  /-- The stack of rules at that point. -/
  active : List Rule

/-- A fresh session of the text, in no rule. -/
def ofText (text : String) (limits : Limits) : Scoped where
  session := .ofText text limits

/-- Treats the items of the agenda in turn, with the stack of rules beside it. -/
def run (σ : Scoped) : List Item → Except Raised Unit × Scoped
  | [] => (.ok (), σ)
  | item :: agenda =>
    match _ : σ.session.step agenda item with
    | (.error failure, session) =>
      -- The failure leaves one rule after the other, each of which would have ended on the agenda.
      (.error ⟨.parse (failure.within σ.rules.head?), σ.rules⟩,
        ⟨session, σ.rules.drop (rulesInForce agenda).length⟩)
    | (.ok agenda', session) => run ⟨session, item.onStack σ.rules⟩ agenda'
termination_by agenda => σ.session.measure agenda
decreasing_by
  rename_i h
  exact Session.step_decreases h

/-- Makes the call, with the stack of rules beside it. -/
def perform (σ : Scoped) : Call → Except Raised (Option Bool) × Scoped
  | .compile =>
    if σ.session.used then (.error ⟨.reused, σ.rules⟩, σ)
    else
      let (outcome, σ) :=
        run { σ with session := { σ.session with used := true } } [.rule .classDec, .finish]
      (outcome.map fun _ ↦ none, σ)
  | .production p =>
    let (outcome, σ) := σ.run p.items
    (outcome.map fun _ ↦ none, σ)
  | .attempt r =>
    match σ.session.look 0 with
    | (.error e, session) => (.error ⟨.parse (.lexical e), σ.rules⟩, { σ with session })
    | (.ok ahead, session) =>
      if ahead.any (·.lexeme.isKeyword r.starts) then
        let (outcome, σ) := run { σ with session } [r.item]
        (outcome.map fun _ ↦ some true, σ)
      else (.ok (some false), { σ with session })

/-- The session and its stack after the calls, whether they fail or not. -/
def performAll (σ : Scoped) (calls : List Call) : Scoped :=
  calls.foldl (fun σ call ↦ (σ.perform call).2) σ

end Scoped

variable {σ σ' : Scoped} {s s' : Session} {item : Item} {agenda agenda' : List Item}

/-! ### The stack and the agenda -/

/-- The innermost rule is the first of those in force. -/
theorem innermostRule_eq (agenda : List Item) :
    innermostRule agenda = (rulesInForce agenda).head? :=
  (List.head?_filterMap ..).symm

/-- The rules in force are those of the items, one after the other. -/
theorem rulesInForce_append (items agenda : List Item) :
    rulesInForce (items ++ agenda) = rulesInForce items ++ rulesInForce agenda :=
  List.filterMap_append ..

/-- Only what a run makes of its agenda has closing items, not what a rule or a choice stands
for. -/
theorem rulesInForce_of_selectable {items : List Item}
    (h : ∀ item ∈ items, item.selectable = true) : rulesInForce items = [] := by
  refine List.filterMap_eq_nil_iff.2 fun item hmem ↦ ?_
  have hitem := h item hmem
  cases item with
  | close r => simp [Item.selectable] at hitem
  | _ => rfl

/-- No rules are in force in the body of a rule before it is begun. -/
theorem rulesInForce_body (r : Rule) : rulesInForce r.body = [] :=
  rulesInForce_of_selectable (Rule.selectable_body r)

/-- Nothing that is selected has rules in force. -/
theorem rulesInForce_select {c : Choice} {ahead : Option Lexeme} {items : List Item}
    (hitems : c.select ahead = .ok items) : rulesInForce items = [] :=
  rulesInForce_of_selectable (selectable_of_select hitems)

/-- Nothing that a production starts with has rules in force. -/
theorem rulesInForce_items (p : Production) : rulesInForce p.items = [] := by
  cases p <;> rfl

theorem rulesInForce_item (r : Repeatable) : rulesInForce [r.item] = [] := by
  cases r <;> rfl

namespace Session

/-- A step changes the stack as it changes the closing items of the agenda. -/
theorem Advance.onStack (h : s.Advance agenda item agenda' s') (outer : List Rule) :
    item.onStack (rulesInForce (item :: agenda) ++ outer) = rulesInForce agenda' ++ outer := by
  cases h with
  | terminal _ _ => rfl
  | @rule r _ _ =>
    rw [rulesInForce_append, rulesInForce_body]
    rfl
  | close _ => rfl
  | choice hitems _ _ =>
    rw [rulesInForce_append, rulesInForce_select hitems]
    rfl
  | finish _ _ _ => rfl

end Session

namespace Scoped

/-! ### A run -/

theorem run_nil (σ : Scoped) : σ.run [] = (.ok (), σ) := by
  rw [run]

/-- A run with a stack goes on as the session does, with the stack that the item leaves. -/
theorem run_of_step_ok (h : σ.session.step agenda item = (.ok agenda', s')) :
    σ.run (item :: agenda) = run ⟨s', item.onStack σ.rules⟩ agenda' := by
  rw [run]
  split <;> simp_all

/-- A run with a stack ends where the session does: the failure names the rule on top, and the stack
is unwound to what it was before the items. -/
theorem run_of_step_error {failure : ParseFailure}
    (h : σ.session.step agenda item = (.error failure, s')) :
    σ.run (item :: agenda) =
      (.error ⟨.parse (failure.within σ.rules.head?), σ.rules⟩,
        ⟨s', σ.rules.drop (rulesInForce agenda).length⟩) := by
  rw [run]
  split <;> simp_all

/-- What holds of an empty agenda and of a failing step, and is handed back by a step that goes
well, holds of every run. -/
theorem run_induction {motive : Scoped → List Item → Except Raised Unit → Scoped → Prop}
    (nil : ∀ σ, motive σ [] (.ok ()) σ)
    (halt : ∀ {σ agenda item failure s'}, σ.session.step agenda item = (.error failure, s') →
      motive σ (item :: agenda) (.error ⟨.parse (failure.within σ.rules.head?), σ.rules⟩)
        ⟨s', σ.rules.drop (rulesInForce agenda).length⟩)
    (advance : ∀ {σ agenda item agenda' s' outcome σ'},
      σ.session.step agenda item = (.ok agenda', s') →
      motive ⟨s', item.onStack σ.rules⟩ agenda' outcome σ' → motive σ (item :: agenda) outcome σ')
    (σ : Scoped) (agenda : List Item) : motive σ agenda (σ.run agenda).1 (σ.run agenda).2 := by
  induction σ, agenda using run.induct with
  | case1 σ =>
    rw [run_nil]
    exact nil σ
  | case2 σ item agenda failure s' hstep =>
    rw [run_of_step_error hstep]
    exact halt hstep
  | case3 σ item agenda agenda' s' hstep ih =>
    rw [run_of_step_ok hstep]
    exact advance hstep ih

/-- A step that fails neither begins nor ends a rule. -/
theorem closes?_of_step_error {failure : ParseFailure}
    (h : s.step agenda item = (.error failure, s')) : item.closes? = none := by
  cases item with
  | close r => simp [Session.step] at h
  | _ => rfl

/-- An error names the innermost rule of the agenda, so the top of the stack is no other. -/
theorem within_of_halt {failure : ParseFailure} (h : s.Halt agenda item failure) :
    failure.within (rulesInForce agenda).head? = failure := by
  rw [← innermostRule_eq]
  cases h with
  | lexical _ _ => rfl
  | token _ _ => rfl
  | endOfInput _ _ _ => rfl

/-- The stack is no more than a record: the session and the failure are those of the plain run. -/
theorem run_plain (σ : Scoped) (agenda : List Item) (hrules : σ.rules = rulesInForce agenda) :
    (σ.run agenda).2.session = (σ.session.run agenda).2 ∧
      (σ.run agenda).1.mapError Raised.failure = (σ.session.run agenda).1.mapError .parse := by
  refine run_induction (motive := fun σ agenda outcome σ' ↦ σ.rules = rulesInForce agenda →
    σ'.session = (σ.session.run agenda).2 ∧
      outcome.mapError Raised.failure = (σ.session.run agenda).1.mapError .parse)
    ?nil ?halt ?advance σ agenda hrules
  case nil =>
    intro σ _
    rw [Session.run_nil]
    exact ⟨rfl, rfl⟩
  case halt =>
    intro σ agenda item failure s' hstep hrules
    have hsame : rulesInForce (item :: agenda) = rulesInForce agenda :=
      List.filterMap_cons_none (closes?_of_step_error hstep)
    obtain ⟨hhalt, -⟩ := Session.halt_of_step hstep
    rw [Session.run_of_step_error hstep, hrules, hsame, within_of_halt hhalt]
    exact ⟨rfl, rfl⟩
  case advance =>
    intro σ agenda item agenda' s' outcome σ' hstep ih hrules
    rw [Session.run_of_step_ok hstep]
    refine ih ?_
    show item.onStack σ.rules = rulesInForce agenda'
    have hstack := (Session.advance_of_step hstep).onStack []
    rwa [List.append_nil, List.append_nil, ← hrules] at hstack

/-! ### A call -/

/-- The stack is no more than a record in a call either. -/
theorem perform_plain (σ : Scoped) (call : Call) (hrules : σ.rules = []) :
    (σ.perform call).2.session = (σ.session.perform call).2 ∧
      (σ.perform call).1.mapError Raised.failure = (σ.session.perform call).1 := by
  have hmap : ∀ {α : Type} (outcome : Except Raised Unit) (plain : Except ParseFailure Unit)
      (answer : α), outcome.mapError Raised.failure = plain.mapError .parse →
      (outcome.map fun _ ↦ answer).mapError Raised.failure =
        (plain.mapError Session.ClassFailure.parse).map fun _ ↦ answer := by
    intro α outcome plain answer h
    rw [← h]
    cases outcome <;> rfl
  cases call with
  | compile =>
    cases hused : σ.session.used with
    | true =>
      rw [perform, Session.perform, Session.runClass_of_used hused, if_pos hused]
      exact ⟨rfl, rfl⟩
    | false =>
      obtain ⟨hsession, houtcome⟩ :=
        run_plain { σ with session := { σ.session with used := true } }
          [.rule .classDec, .finish] hrules
      rw [perform, Session.perform, Session.runClass_of_fresh hused rfl, if_neg (by simp [hused])]
      exact ⟨hsession, hmap _ _ _ houtcome⟩
  | production p =>
    obtain ⟨hsession, houtcome⟩ := σ.run_plain p.items (hrules.trans (rulesInForce_items p).symm)
    exact ⟨hsession, hmap _ _ _ houtcome⟩
  | attempt r =>
    rw [perform, Session.perform, Session.attempt]
    rcases σ.session.look 0 with ⟨e | ahead, s⟩
    · exact ⟨rfl, rfl⟩
    · by_cases hstarts : ahead.any (·.lexeme.isKeyword r.starts) = true
      · obtain ⟨hsession, houtcome⟩ :=
          run_plain { σ with session := s } [r.item] (hrules.trans (rulesInForce_item r).symm)
        simp only [if_pos hstarts]
        refine ⟨hsession, (hmap _ _ (some true) houtcome).trans ?_⟩
        cases (s.run [r.item]).1 <;> rfl
      · simp [hstarts, Except.map]

end Scoped

end JackSyntax
