import JackSyntax.Proofs.Event.Balance
import JackSyntax.Proofs.Parser.RuleStack

/-!
# Elements left open by a call

The elements that a session has open are those of the tagged rules on its stack. So a call that
returns has closed what it opened, and one that fails has left open just the elements of the rules
it was in (`Scoped.run_ends`, `Scoped.perform_ends`).

The rule of a call has no element, and an error that names it does not name the innermost element
open. But around a call there are only a do statement, a term or nothing (`CallsEnclosed`), and that
tells which element it is.

## Main statements

* `Scoped.exists_settles`: how a call leaves the stack and the elements it opened.
-/

namespace JackSyntax

/-- The elements that rules in force have open, the innermost first. -/
def openElements (rules : List Rule) : List String :=
  (rules.filter Rule.tagged).map Rule.name

variable {σ σ' : Scoped} {s s' : Session} {item : Item} {agenda agenda' : List Item}
  {outer : List Rule} {appended : List Event}

namespace Session

/-- A step opens and closes elements as it changes the rules in force. -/
theorem Advance.unclosed_eq (h : s.Advance agenda item agenda' s') :
    ∃ tokens events, s.Moves s' tokens events ∧
      unclosed (openElements (rulesInForce (item :: agenda))) events =
        some (openElements (rulesInForce agenda')) := by
  cases h with
  | terminal _ hmoves => exact ⟨_, _, hmoves, rfl⟩
  | @rule r _ hmoves =>
    refine ⟨_, _, hmoves, ?_⟩
    rw [rulesInForce_append, rulesInForce_body]
    show unclosed (openElements (rulesInForce agenda)) r.opening =
      some (openElements (r :: rulesInForce agenda))
    cases htagged : r.tagged <;> simp [Rule.opening, openElements, htagged, unclosed]
  | @close r _ hmoves =>
    refine ⟨_, _, hmoves, ?_⟩
    show unclosed (openElements (r :: rulesInForce agenda)) r.closing =
      some (openElements (rulesInForce agenda))
    cases htagged : r.tagged <;> simp [Rule.closing, openElements, htagged, unclosed]
  | choice hitems _ hmoves =>
    refine ⟨_, _, hmoves, ?_⟩
    rw [rulesInForce_append, rulesInForce_select hitems]
    rfl
  | finish _ _ hmoves => exact ⟨_, _, hmoves, rfl⟩

end Session

/-! ### What is around a call -/

/-- Whether the item is a call, or may become one. -/
def Item.maybeCall : Item → Bool
  | rule .subroutineCall | close .subroutineCall | choice .term | choice .nameTerm => true
  | _ => false

/-- What the innermost rule around a call may be. -/
def aroundCalls : List (Option Rule) :=
  [none, some .doStatement, some .term]

/-- Every call of the agenda stands directly in a do statement, in a term or in no rule. -/
def CallsEnclosed : List Item → Prop
  | [] => True
  | item :: agenda =>
    (item.maybeCall = true → innermostRule agenda ∈ aroundCalls) ∧ CallsEnclosed agenda

theorem CallsEnclosed.body {r : Rule} (h : CallsEnclosed (.rule r :: agenda)) :
    CallsEnclosed (r.body ++ .close r :: agenda) := by
  obtain ⟨haround, hagenda⟩ := h
  cases r with
  | subroutineCall => simp [Rule.body, CallsEnclosed, Item.maybeCall, hagenda, haround rfl]
  | _ =>
    simp [Rule.body, Item.parenthesized, Item.block, CallsEnclosed, Item.maybeCall, aroundCalls,
      innermostRule, List.findSome?, Item.closes?, hagenda]

theorem CallsEnclosed.select {c : Choice} {ahead : Option Lexeme} {items : List Item}
    (h : CallsEnclosed (.choice c :: agenda)) (hitems : c.select ahead = .ok items) :
    CallsEnclosed (items ++ agenda) := by
  obtain ⟨haround, hagenda⟩ := h
  rcases c.optional_or with hc | rfl | rfl | rfl
  · rw [Choice.select_of_optional hc] at hitems
    obtain rfl := Except.ok.inj hitems
    split
    · cases c with
      | many r =>
        cases r <;> simp [Choice.part, Repeatable.item, CallsEnclosed, Item.maybeCall, hagenda]
      | _ => simp [Choice.part, Item.block, CallsEnclosed, Item.maybeCall, hagenda]
    · exact hagenda
  · cases ahead with
    | none => simp [Choice.select] at hitems
    | some l =>
      obtain ⟨k, r, -, hr, rfl⟩ := statementItems_cases hitems
      cases k <;> simp only [Rule.ofStatementStart?, Option.some.injEq, reduceCtorEq] at hr <;>
        subst hr <;> simp [CallsEnclosed, Item.maybeCall, hagenda]
  · cases ahead with
    | none => simp [Choice.select] at hitems
    | some l =>
      rcases termItems_cases hitems with ⟨-, rfl⟩ | ⟨-, rfl⟩ | ⟨-, rfl⟩ | ⟨-, rfl⟩ <;>
        simp [Item.parenthesized, CallsEnclosed, Item.maybeCall, hagenda, haround rfl]
  · obtain rfl := Except.ok.inj hitems
    split <;> simp [CallsEnclosed, Item.maybeCall, hagenda, haround rfl]

theorem callsEnclosed_items (p : Production) : CallsEnclosed p.items := by
  cases p with
  | rule r =>
    simp [Production.items, CallsEnclosed, innermostRule, aroundCalls]
  | _ =>
    simp [Production.items, Item.parenthesized, Item.block, CallsEnclosed, Item.maybeCall,
      innermostRule, aroundCalls]

theorem callsEnclosed_item (r : Repeatable) : CallsEnclosed [r.item] := by
  cases r <;> simp [Repeatable.item, CallsEnclosed, Item.maybeCall]

theorem callsEnclosed_class : CallsEnclosed [.rule .classDec, .finish] := by
  simp [CallsEnclosed, Item.maybeCall]

theorem Session.Advance.callsEnclosed (hcalls : CallsEnclosed (item :: agenda))
    (h : s.Advance agenda item agenda' s') : CallsEnclosed agenda' := by
  cases h with
  | terminal _ _ => exact hcalls.2
  | rule _ => exact hcalls.body
  | close _ => exact hcalls.2
  | choice hitems _ _ => exact hcalls.select hitems
  | finish _ _ _ => exact hcalls.2

/-- The rule that follows a call on the stack is one that may be around it. -/
theorem CallsEnclosed.around {rest : List Rule} (h : CallsEnclosed agenda)
    (hrules : rulesInForce agenda = .subroutineCall :: rest) : rest.head? ∈ aroundCalls := by
  induction agenda with
  | nil => simp [rulesInForce] at hrules
  | cons item agenda ih =>
    cases item with
    | close r =>
      obtain ⟨rfl, rfl⟩ := List.cons.inj hrules
      exact innermostRule_eq agenda ▸ h.1 rfl
    | _ => exact ih h.2 hrules

/-- When an error names the innermost rule, its element is the innermost one open, unless it is the
rule of a call, which has no element. -/
theorem name_eq_or_call {active : List Rule}
    (hcalls : ∀ rest, active = .subroutineCall :: rest → rest.head? ∈ aroundCalls) :
    active.head?.map Rule.name = (openElements active).head? ∨
      active.head? = some .subroutineCall ∧
        (openElements active).head? ∈ [none, some "doStatement", some "term"] := by
  cases active with
  | nil => exact .inl rfl
  | cons r rest =>
    cases htagged : r.tagged with
    | true =>
      left
      simp [openElements, htagged]
    | false =>
      obtain rfl : r = .subroutineCall := by cases r <;> simp [Rule.tagged] at htagged ⊢
      refine .inr ⟨rfl, ?_⟩
      have haround := hcalls rest rfl
      cases rest with
      | nil => simp [openElements, Rule.tagged]
      | cons r' rest =>
        simp only [aroundCalls, List.head?_cons, List.mem_cons, Option.some.injEq, reduceCtorEq,
          false_or, List.not_mem_nil, or_false] at haround
        rcases haround with rfl | rfl <;> simp [openElements, Rule.tagged, Rule.name]

namespace Scoped

/-! ### A run -/

/-- How a run or a call ends for the rules `begun` that it was to end, of those in force, and their
elements: it ends them all, or it fails with some of those and of the rules begun since active. -/
structure Ends {α : Type} (begun outer : List Rule) (outcome : Except Raised α) (σ' : Scoped)
    (appended : List Event) : Prop where
  /-- The other rules are in force as before, also after a failure. -/
  rules_eq : σ'.rules = outer
  /-- If all went well, the elements have ended too. -/
  closed : ∀ answer, outcome = .ok answer → unclosed (openElements begun) appended = some []
  /-- After a failure those of the active rules are open, and an error names the innermost rule. -/
  raised : ∀ raised, outcome = .error raised → ∃ active, raised.active = active ++ outer ∧
    unclosed (openElements begun) appended = some (openElements active) ∧
    (∀ rest, active = .subroutineCall :: rest → rest.head? ∈ aroundCalls) ∧
    ∀ e, raised.failure = .parse (.syntactic e) → e.rule = raised.active.head?

/-- What is answered does not matter to that. -/
theorem Ends.map {α β : Type} {begun : List Rule} {outcome : Except Raised α} (f : α → β)
    (h : Ends begun outer outcome σ' appended) : Ends begun outer (outcome.map f) σ' appended := by
  cases outcome with
  | ok answer => exact ⟨h.rules_eq, fun _ _ ↦ h.closed answer rfl, by simp [Except.map]⟩
  | error raised =>
    refine ⟨h.rules_eq, by simp [Except.map], fun raised' hraised ↦ ?_⟩
    obtain rfl := Except.error.inj hraised
    exact h.raised _ rfl

/-- A run ends the rules of its agenda, and their elements unless it fails. -/
theorem run_ends (σ : Scoped) (agenda : List Item) (hrules : σ.rules = rulesInForce agenda ++ outer)
    (hcalls : CallsEnclosed agenda) :
    ∃ tokens appended, σ.session.Moves (σ.run agenda).2.session tokens appended ∧
      Ends (rulesInForce agenda) outer (σ.run agenda).1 (σ.run agenda).2 appended := by
  refine run_induction (motive := fun σ agenda outcome σ' ↦ σ.rules = rulesInForce agenda ++ outer →
    CallsEnclosed agenda → ∃ tokens appended, σ.session.Moves σ'.session tokens appended ∧
      Ends (rulesInForce agenda) outer outcome σ' appended)
    ?nil ?halt ?advance σ agenda hrules hcalls
  case nil =>
    intro σ hrules _
    exact ⟨[], [], Session.Moves.refl _, hrules, fun _ _ ↦ rfl, by simp⟩
  case halt =>
    intro σ agenda item failure s' hstep hrules hcalls
    have hsame : rulesInForce (item :: agenda) = rulesInForce agenda :=
      List.filterMap_cons_none (closes?_of_step_error hstep)
    obtain ⟨-, hmoves⟩ := Session.halt_of_step hstep
    rw [hsame] at hrules ⊢
    refine ⟨[], [], hmoves, ?_, by simp, fun raised hraised ↦ ?_⟩
    · show σ.rules.drop _ = outer
      rw [hrules, List.drop_left]
    · obtain rfl := Except.error.inj hraised
      refine ⟨rulesInForce agenda, hrules, rfl, fun _ ↦ hcalls.2.around, fun e he ↦ ?_⟩
      cases failure with
      | lexical e => simp [ParseFailure.within] at he
      | syntactic e =>
        obtain rfl := ParseFailure.syntactic.inj (Session.ClassFailure.parse.inj he)
        rfl
  case advance =>
    intro σ agenda item agenda' s₁ outcome σ' hstep ih hrules hcalls
    have hadvance := Session.advance_of_step hstep
    obtain ⟨tokens, events, hmoves, hevents⟩ := hadvance.unclosed_eq
    have hstack : item.onStack σ.rules = rulesInForce agenda' ++ outer := by
      rw [hrules]
      exact hadvance.onStack outer
    obtain ⟨more, later, hrest, hends⟩ := ih hstack (hadvance.callsEnclosed hcalls)
    refine ⟨tokens ++ more, events ++ later, hmoves.trans hrest, hends.rules_eq, ?_, ?_⟩
    · intro answer hok
      rw [unclosed_append_of_eq hevents]
      exact hends.closed answer hok
    · intro raised hraised
      obtain ⟨active, hactive, hopen, haround, hnamed⟩ := hends.raised raised hraised
      exact ⟨active, hactive, (unclosed_append_of_eq hevents).trans hopen, haround, hnamed⟩

/-! ### A call -/

/-- A call that fails before it runs anything appends nothing. -/
theorem ends_nil {α : Type} (rules : List Rule) (failure : Session.ClassFailure) (s : Session)
    (hnone : ∀ e, failure ≠ .parse (.syntactic e)) :
    Ends (α := α) [] rules (.error ⟨failure, rules⟩) ⟨s, rules⟩ [] := by
  refine ⟨rfl, by simp, fun raised hraised ↦ ?_⟩
  obtain rfl := Except.error.inj hraised
  exact ⟨[], rfl, rfl, by simp, fun e he ↦ absurd he (hnone e)⟩

/-- A call has no rule to end but those that it begins. -/
theorem perform_ends (σ : Scoped) (call : Call) :
    ∃ appended, (σ.perform call).2.session.events = σ.session.events ++ appended ∧
      Ends [] σ.rules (σ.perform call).1 (σ.perform call).2 appended := by
  cases call with
  | compile =>
    cases hused : σ.session.used with
    | true =>
      rw [perform, if_pos hused]
      exact ⟨[], (List.append_nil _).symm, ends_nil _ _ _ (by simp)⟩
    | false =>
      obtain ⟨tokens, appended, hmoves, hends⟩ :=
        run_ends { σ with session := { σ.session with used := true } } [.rule .classDec, .finish]
          rfl callsEnclosed_class
      rw [perform, if_neg (by simp [hused])]
      exact ⟨appended, hmoves.events_eq, hends.map _⟩
  | production p =>
    have hrules : rulesInForce p.items = [] := rulesInForce_items p
    obtain ⟨tokens, appended, hmoves, hends⟩ :=
      σ.run_ends p.items (by rw [hrules, List.nil_append]) (callsEnclosed_items p)
    rw [hrules] at hends
    exact ⟨appended, hmoves.events_eq, hends.map _⟩
  | attempt r =>
    rw [perform]
    rcases hlook : σ.session.look 0 with ⟨e | ahead, s⟩
    · obtain ⟨-, -, hmoves⟩ := Session.look_error hlook
      exact ⟨[], hmoves.events_eq, ends_nil _ _ _ (by simp)⟩
    · obtain ⟨-, -, hmoves⟩ := Session.look_ok hlook
      by_cases hstarts : ahead.any (·.lexeme.isKeyword r.starts) = true
      · have hrules : rulesInForce [r.item] = [] := rulesInForce_item r
        obtain ⟨tokens, appended, hrest, hends⟩ :=
          run_ends { σ with session := s } [r.item] (by rw [hrules, List.nil_append])
            (callsEnclosed_item r)
        rw [hrules] at hends
        simp only [if_pos hstarts]
        exact ⟨appended, (hmoves.trans hrest).events_eq, hends.map _⟩
      · simp only [if_neg hstarts]
        exact ⟨[], hmoves.events_eq, rfl, fun _ _ ↦ rfl, by simp⟩

/-- How a call leaves the stack of rules and the elements that it appends the events of. -/
structure Settles (σ : Scoped) (call : Call) (appended : List Event) : Prop where
  events_eq : (σ.perform call).2.session.events = σ.session.events ++ appended
  /-- The stack is as before, however the call ended. -/
  rules_eq : (σ.perform call).2.rules = σ.rules
  /-- A call that returns has closed what it opened, and nothing else. -/
  balanced : ∀ answer, (σ.perform call).1 = .ok answer → balanced appended = true
  /-- An attempt that does not apply does nothing. -/
  declined : (σ.perform call).1 = .ok (some false) →
    appended = [] ∧ (σ.perform call).2.session.pending = σ.session.pending ∧
      (σ.perform call).2.session.consumed = σ.session.consumed
  /-- A call that fails leaves open the elements of the rules active then. -/
  raised : ∀ raised, (σ.perform call).1 = .error raised →
    unclosed [] appended = some (openElements raised.active)
  /-- A syntax error names the innermost of them. It is that of the innermost element left open, or
  there is neither, or it is a call, right within a do statement, a term or no element. -/
  named : ∀ e active, (σ.perform call).1 = .error ⟨.parse (.syntactic e), active⟩ →
    e.rule = active.head? ∧ (e.rule.map Rule.name = (openElements active).head? ∨
      e.rule = some .subroutineCall ∧
        (openElements active).head? ∈ [none, some "doStatement", some "term"])

/-- Only an attempt can answer that it does not apply, and then it has looked ahead and no more. -/
theorem moves_of_declined {call : Call} (h : (s.perform call).1 = .ok (some false)) :
    s.Moves (s.perform call).2 [] [] := by
  cases call with
  | compile =>
    rw [Session.perform] at h
    rcases hclass : s.runClass with ⟨failure | answer, s'⟩ <;> simp [hclass, Except.map] at h
  | production p =>
    rw [Session.perform] at h
    rcases hrun : s.run p.items with ⟨failure | answer, s'⟩ <;>
      simp [hrun, Except.map] at h
  | attempt r =>
    rw [Session.perform, Session.attempt] at h ⊢
    rcases hlook : s.look 0 with ⟨e | ahead, s'⟩
    · exact (Session.look_error hlook).2.2
    · simp only [hlook] at h ⊢
      by_cases hstarts : ahead.any (·.lexeme.isKeyword r.starts) = true
      · simp only [if_pos hstarts] at h
        rcases hrun : s'.run [r.item] with ⟨failure | answer, s''⟩ <;>
          simp [hrun, Except.map] at h
      · simp only [if_neg hstarts]
        exact (Session.look_ok hlook).2.2

/-- Outside all rules, a call settles what it began. -/
theorem exists_settles (σ : Scoped) (call : Call) (hrules : σ.rules = []) :
    ∃ appended, σ.Settles call appended := by
  obtain ⟨appended, hevents, hends⟩ := σ.perform_ends call
  refine ⟨appended, hevents, hends.rules_eq, fun answer hok ↦ ?_, fun hfalse ↦ ?_,
    fun raised hraised ↦ ?_, fun e active herror ↦ ?_⟩
  · exact balanced_iff.2 (hends.closed answer hok)
  · obtain ⟨hsession, houtcome⟩ := σ.perform_plain call hrules
    rw [hfalse] at houtcome
    have hmoves := moves_of_declined houtcome.symm
    rw [← hsession] at hmoves
    refine ⟨?_, hmoves.pending_eq.symm, ?_⟩
    · have hnone := hmoves.events_eq
      rwa [hevents, List.append_cancel_left_eq] at hnone
    · have hcount := hmoves.count
      rw [List.length_nil] at hcount
      simp only [Session.consumed]
      omega
  · obtain ⟨active, hactive, hopen, -, -⟩ := hends.raised raised hraised
    rw [hrules, List.append_nil] at hactive
    rwa [hactive]
  · obtain ⟨active', hactive, -, haround, hnamed⟩ := hends.raised _ herror
    rw [hrules, List.append_nil] at hactive
    obtain rfl : active = active' := hactive
    have hrule : e.rule = active.head? := hnamed e rfl
    rw [hrule]
    exact ⟨rfl, name_eq_or_call haround⟩

end Scoped

end JackSyntax
