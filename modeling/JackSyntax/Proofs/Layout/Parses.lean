import JackSyntax.Analysis
import JackSyntax.Proofs.Layout.Readings
import JackSyntax.Proofs.Parser.Step

/-!
# Parsing texts that are laid out differently

A parser decides by kinds and spellings, and by no place and no string. So where two sessions have
corresponding tokens left, they take the same steps (`Relayout.Sessions.step`), to the same events
but for what strings hold, or to the same complaint at places that stand for each other.

## Main statements

* `Relayout.Sessions.run`: sessions that correspond run alike.
* `Relayout.Readings.events`: the events or the complaint of two sources whose readings correspond.
-/

namespace JackSyntax

namespace Relayout

variable (c : Relayout)

/-- The event in the second layout. -/
def event : Event → Event
  | .terminal kind text =>
    .terminal kind (if kind = Kind.stringConstant.name then c.string text else text)
  | e => e

/-- What was found corresponds. -/
inductive Founds : Found → Found → Prop
  | token {token token' : Token} (h : c.Tokens token token') : Founds (.token token) (.token token')
  | endOfInput {p p' : Position} (h : c.place p p') : Founds (.endOfInput p) (.endOfInput p')

/-- The failures are the same but for the layout. -/
inductive Failures : ParseFailure → ParseFailure → Prop
  | lexical {e e' : LexError} (h : c.Errors e e') : Failures (.lexical e) (.lexical e')
  | syntactic {rule : Option Rule} {expected : Expectation} {found found' : Found}
    (h : c.Founds found found') :
    Failures (.syntactic ⟨rule, expected, found⟩) (.syntactic ⟨rule, expected, found'⟩)

/-- The sessions have the same left and the same behind them, but for the layout. -/
structure Sessions (s s' : Session) : Prop where
  pending : List.Forall₂ c.Tokens s.pending s'.pending
  failure : Option.Rel c.Errors s.failure s'.failure
  endPosition : c.place s.endPosition s'.endPosition
  events_eq : s'.events = s.events.map c.event

/-- The complaints are those of failures that correspond. -/
def Complaints (source source' : Source) (d d' : Diagnostic) : Prop :=
  ∃ failure failure', c.Failures failure failure' ∧ d = failure.diagnostic source ∧
    d' = failure'.diagnostic source'

variable {c}

/-! ### What a parser decides by -/

/-- A change of layout changes nothing but strings, so the tests of a parser come out the same. -/
@[simp]
theorem isKeyword_lexeme (ks : List Keyword) (l : Lexeme) :
    (c.lexeme l).isKeyword ks = l.isKeyword ks := by
  cases l <;> rfl

@[simp]
theorem isSymbol_lexeme (ss : List Symbol) (l : Lexeme) :
    (c.lexeme l).isSymbol ss = l.isSymbol ss := by
  cases l <;> rfl

@[simp]
theorem isIdentifier_lexeme (l : Lexeme) : (c.lexeme l).isIdentifier = l.isIdentifier := by
  cases l <;> rfl

@[simp]
theorem isLiteral_lexeme (l : Lexeme) : (c.lexeme l).isLiteral = l.isLiteral := by
  cases l <;> rfl

/-- A terminal admits a lexeme in either layout or in none. -/
theorem admits_lexeme (t : Terminal) (l : Lexeme) : t.admits (c.lexeme l) = t.admits l := by
  cases t <;> simp [Terminal.admits]

theorem termItems_lexeme (l : Lexeme) : termItems (c.lexeme l) = termItems l := by
  simp [termItems]

theorem statementItems_lexeme (l : Lexeme) : statementItems (c.lexeme l) = statementItems l := by
  cases l <;> rfl

/-- A choice is decided in the same way in either layout. -/
theorem select_lexeme (choice : Choice) (ahead : Option Lexeme) :
    choice.select (ahead.map c.lexeme) = choice.select ahead := by
  cases ahead with
  | none => rfl
  | some l => cases choice <;> simp [Choice.select, termItems_lexeme, statementItems_lexeme]

/-- The event of a changed lexeme is the changed event. -/
theorem ofLexeme_lexeme (l : Lexeme) : Event.ofLexeme (c.lexeme l) = c.event (.ofLexeme l) := by
  cases l <;> rfl

/-- The events around a rule are no terminals, so they stay as they are. -/
theorem map_event_opening (r : Rule) : r.opening.map c.event = r.opening := by
  unfold Rule.opening
  split <;> rfl

theorem map_event_closing (r : Rule) : r.closing.map c.event = r.closing := by
  unfold Rule.closing
  split <;> rfl

/-! ### Sessions -/

section Sessions

variable {s s' s₁ s₁' : Session} {tokens tokens' : List Token} {events events' : List Event}
  {ahead ahead' : Option Token}

/-- Sessions that move over corresponding tokens, with corresponding events, still correspond. -/
theorem Sessions.moves (h : c.Sessions s s') (hmoves : s.Moves s₁ tokens events)
    (hmoves' : s'.Moves s₁' tokens' events') (hlength : tokens.length = tokens'.length)
    (hevents : events' = events.map c.event) : c.Sessions s₁ s₁' where
  pending := by
    have hrest := List.forall₂_drop tokens.length h.pending
    rwa [hmoves.pending_eq, hmoves'.pending_eq, List.drop_left, hlength, List.drop_left] at hrest
  failure := by
    rw [hmoves.failure_eq, hmoves'.failure_eq]
    exact h.failure
  endPosition := by
    rw [hmoves.endPosition_eq, hmoves'.endPosition_eq]
    exact h.endPosition
  events_eq := by
    rw [hmoves.events_eq, hmoves'.events_eq, h.events_eq, hevents, List.map_append]

/-- Corresponding tokens are seen ahead, or errors of the same cause, or the end. -/
theorem ahead_rel {failure failure' : Option LexError}
    (htokens : List.Forall₂ c.Tokens tokens tokens')
    (hfailure : Option.Rel c.Errors failure failure') (depth : Nat) :
    ResultRel c.Errors (Option.Rel c.Tokens) (TokenStream.ahead tokens failure depth)
      (TokenStream.ahead tokens' failure' depth) := by
  have htoken := forall₂_getElem? htokens depth
  unfold TokenStream.ahead
  generalize tokens[depth]? = token at htoken
  generalize tokens'[depth]? = token' at htoken
  cases htoken with
  | some htoken => exact .ok (.some htoken)
  | none =>
    cases hfailure with
    | some he => exact .error he
    | none => exact .ok .none

/-- Looking ahead gives corresponding answers. -/
theorem Sessions.exists_look (h : c.Sessions s s') (depth : Nat) :
    ∃ answer s₁ answer' s₁', s.look depth = (answer, s₁) ∧ s'.look depth = (answer', s₁') ∧
      ResultRel c.Errors (Option.Rel c.Tokens) answer answer' ∧ c.Sessions s₁ s₁' := by
  rcases hlook : s.look depth with ⟨answer, s₁⟩
  rcases hlook' : s'.look depth with ⟨answer', s₁'⟩
  obtain ⟨rfl, hmoves⟩ := Session.moves_look hlook
  obtain ⟨rfl, hmoves'⟩ := Session.moves_look hlook'
  exact ⟨_, _, _, _, rfl, rfl, ahead_rel h.pending h.failure depth,
    h.moves hmoves hmoves' rfl rfl⟩

/-- Related sessions stay related when both enter or leave a rule. -/
theorem Sessions.enter (h : c.Sessions s s') (r : Rule) : c.Sessions (s.enter r) (s'.enter r) :=
  h.moves (s.moves_enter r) (s'.moves_enter r) rfl (map_event_opening r).symm

theorem Sessions.leave (h : c.Sessions s s') (r : Rule) : c.Sessions (s.leave r) (s'.leave r) :=
  h.moves (s.moves_leave r) (s'.moves_leave r) rfl (map_event_closing r).symm

/-- What was found instead of what was expected corresponds. -/
theorem Sessions.unexpected (h : c.Sessions s s') (agenda : List Item) (expected : Expectation)
    {found found' : Option Token} (hfound : Option.Rel c.Tokens found found') :
    c.Failures (s.unexpected agenda expected found) (s'.unexpected agenda expected found') := by
  cases hfound with
  | none => exact .syntactic (.endOfInput h.endPosition)
  | some htoken => exact .syntactic (.token htoken)

/-- Sessions that correspond take the same step. -/
theorem Sessions.step (h : c.Sessions s s') (agenda : List Item) (item : Item) :
    ResultRel c.Failures Eq (s.step agenda item).1 (s'.step agenda item).1 ∧
      c.Sessions (s.step agenda item).2 (s'.step agenda item).2 := by
  cases item with
  | rule r => exact ⟨.ok rfl, h.enter r⟩
  | close r => exact ⟨.ok rfl, h.leave r⟩
  | terminal t =>
    obtain ⟨answer, s₁, answer', s₁', hlook, hlook', hanswer, hrest⟩ := h.exists_look 0
    simp only [Session.step, hlook, hlook']
    cases hanswer with
    | error he => exact ⟨.error (.lexical he), hrest⟩
    | ok hahead =>
      cases hahead with
      | none => exact ⟨.error (hrest.unexpected _ _ .none), hrest⟩
      | @some token token' htoken =>
        simp only [htoken.lexeme_eq, admits_lexeme]
        split
        · have hevent : [token'.event] = [token.event].map c.event := by
            rw [Token.event, htoken.lexeme_eq, ofLexeme_lexeme]
            rfl
          exact ⟨.ok rfl, h.moves (Session.moves_consume hlook) (Session.moves_consume hlook')
            rfl hevent⟩
        · exact ⟨.error (hrest.unexpected _ _ (.some htoken)), hrest⟩
  | choice choice =>
    obtain ⟨answer, s₁, answer', s₁', hlook, hlook', hanswer, hrest⟩ := h.exists_look choice.depth
    simp only [Session.step, hlook, hlook']
    cases hanswer with
    | error he => exact ⟨.error (.lexical he), hrest⟩
    | @ok ahead ahead' hahead =>
      have hlexeme : ahead'.map Token.lexeme = (ahead.map Token.lexeme).map c.lexeme := by
        cases hahead with
        | none => rfl
        | some htoken => exact congrArg some htoken.lexeme_eq
      simp only [hlexeme, select_lexeme]
      split
      · exact ⟨.error (hrest.unexpected _ _ hahead), hrest⟩
      · exact ⟨.ok rfl, hrest⟩
  | finish =>
    obtain ⟨answer, s₁, answer', s₁', hlook, hlook', hanswer, hrest⟩ := h.exists_look 0
    simp only [Session.step, hlook, hlook']
    cases hanswer with
    | error he => exact ⟨.error (.lexical he), hrest⟩
    | ok hahead =>
      cases hahead with
      | none => exact ⟨.ok rfl, hrest⟩
      | some htoken => exact ⟨.error (hrest.unexpected _ _ (.some htoken)), hrest⟩

/-- Sessions that correspond run alike. -/
theorem Sessions.run (h : c.Sessions s s') (agenda : List Item) :
    ResultRel c.Failures Eq (s.run agenda).1 (s'.run agenda).1 ∧
      c.Sessions (s.run agenda).2 (s'.run agenda).2 := by
  induction s, agenda using Session.run.induct generalizing s' with
  | case1 s =>
    rw [Session.run_nil, Session.run_nil]
    exact ⟨.ok rfl, h⟩
  | case2 s item agenda failure s₁ hstep =>
    obtain ⟨hanswer, hrest⟩ := h.step agenda item
    rcases hstep' : s'.step agenda item with ⟨answer', s₁'⟩
    rw [hstep, hstep'] at hanswer hrest
    cases hanswer with
    | error hfailure =>
      rw [Session.run_of_step_error hstep, Session.run_of_step_error hstep']
      exact ⟨.error hfailure, hrest⟩
  | case3 s item agenda agenda₁ s₁ hstep ih =>
    obtain ⟨hanswer, hrest⟩ := h.step agenda item
    rcases hstep' : s'.step agenda item with ⟨answer', s₁'⟩
    rw [hstep, hstep'] at hanswer hrest
    cases hanswer with
    | ok hagenda =>
      subst hagenda
      rw [Session.run_of_step_ok hstep, Session.run_of_step_ok hstep']
      exact ih hrest

end Sessions

/-! ### Sources -/

/-- Two sources whose readings correspond have the same events but for the layout, or complaints
that correspond. -/
theorem Readings.events {source source' : Source} {limits : Limits}
    (h : c.Readings (source.reading limits) (source'.reading limits))
    (hend : c.place (endPosition source.text) (endPosition source'.text)) :
    ResultRel (c.Complaints source source') (fun events events' ↦ events' = events.map c.event)
      (source.events limits) (source'.events limits) := by
  have hstart : c.Sessions (.ofText source.text limits) (.ofText source'.text limits) :=
    ⟨h.tokens, h.failure, hend, rfl⟩
  obtain ⟨hanswer, hrest⟩ := hstart.run [.rule .classDec, .finish]
  unfold Source.events
  rcases hrun : (Session.ofText source.text limits).run [.rule .classDec, .finish] with
    ⟨outcome, s⟩
  rcases hrun' : (Session.ofText source'.text limits).run [.rule .classDec, .finish] with
    ⟨outcome', s'⟩
  rw [hrun, hrun'] at hanswer hrest
  cases hanswer with
  | error hfailure => exact .error ⟨_, _, hfailure, rfl, rfl⟩
  | ok _ => exact .ok hrest.events_eq

end Relayout

end JackSyntax
