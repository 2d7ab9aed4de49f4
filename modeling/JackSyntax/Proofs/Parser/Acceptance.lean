import JackSyntax.Analysis
import JackSyntax.Proofs.Grammar.Productive
import JackSyntax.Proofs.Parser.Step

/-!
# The parser accepts the grammar

A session's agenda says what the grammar still allows, and a step keeps that in line with the tokens
left: what completes the agenda before the step completes the agenda after it, less the token
consumed and the events emitted (`Session.Advance.completes`). So a run that reaches the end of the
text has found a derivation, and where there is one no step fails.

## Main statements

* `Source.events_eq_ok_iff`: the events of a source are those of the derivation of its lexemes as a
  class, and there are none if it has no derivation or cannot be read.
* `IsClass.events_unique`: lexemes have one tree at most.
-/

namespace JackSyntax

variable {item : Item} {agenda agenda' : List Item} {lexemes u : List Lexeme}
  {x events : List Event} {s s' : Session}

/-! ### What holds of every agenda -/

/-- What the parser keeps true of its agenda and the lexemes left. -/
structure Fit (agenda : List Item) (lexemes : List Lexeme) : Prop where
  /-- What is left after each item begins as it may. -/
  guarded : Guarded agenda
  /-- Some lexemes complete the agenda. -/
  completable : Extends agenda []
  /-- A term that starts with a name has a name in front of it. -/
  named : agenda.head? = some (.choice .nameTerm) →
    lexemes.head?.any Lexeme.isIdentifier = true

/-- What the parser starts with. -/
theorem Fit.start (lexemes : List Lexeme) : Fit [.rule .classDec, .finish] lexemes where
  guarded := by simp [Guarded, Item.follow?]
  completable := extends_nil_cons rfl ⟨[], [], rfl, rfl, rfl⟩
  named := by simp

/-- What completes it is a class. -/
theorem completes_start : Completes [.rule .classDec, .finish] u x ↔ IsClass u x := by
  have hfinish : Completes [.finish] = fun u x ↦ u = [] ∧ x = [] := by
    funext u x
    exact propext ⟨fun h ↦ h.2, fun h ↦ ⟨h.1, h⟩⟩
  rw [Completes, Item.before, hfinish, Form.before_nil_iff]
  rfl

/-- Once its first item is done, the others are as fit as they were. -/
theorem Fit.tail (h : Fit (item :: agenda) lexemes) : Fit agenda u where
  guarded := h.guarded.2.2
  completable := extends_nil_of_cons h.completable
  named := fun hhead ↦ absurd (List.mem_of_head? hhead) h.guarded.2.1

theorem Rule.head?_body_ne (r : Rule) (agenda : List Item) :
    (r.body ++ .close r :: agenda).head? ≠ some (.choice .nameTerm) := by
  cases r <;> simp [body]

theorem Fit.body {r : Rule} (h : Fit (.rule r :: agenda) lexemes) :
    Fit (r.body ++ .close r :: agenda) u where
  guarded := h.guarded.body
  completable := by
    obtain ⟨u, x, hrule⟩ := h.completable
    rw [completes_rule] at hrule
    obtain ⟨x', -, hbody⟩ := hrule
    exact ⟨u, x', hbody⟩
  named := fun hhead ↦ absurd hhead (r.head?_body_ne agenda)

/-- Only a term that a name was seen to start is left to the token after the name. -/
theorem Choice.head?_select {c : Choice} {ahead : Option Lexeme} {items : List Item}
    (hitems : c.select ahead = .ok items) (hhead : items.head? = some (.choice .nameTerm)) :
    c = .term ∧ ahead.any Lexeme.isIdentifier = true := by
  rcases c.optional_or with hc | rfl | rfl | rfl
  · rw [select_of_optional hc] at hitems
    obtain rfl := Except.ok.inj hitems
    split at hhead
    · cases c with
      | many r => cases r <;> simp [part, Repeatable.item] at hhead
      | _ => simp [part] at hhead
    · simp at hhead
  · cases ahead with
    | none => simp [select] at hitems
    | some l =>
      obtain ⟨k, r, -, -, rfl⟩ := statementItems_cases hitems
      simp at hhead
  · cases ahead with
    | none => simp [select] at hitems
    | some l =>
      rcases termItems_cases hitems with ⟨-, rfl⟩ | ⟨-, rfl⟩ | ⟨-, rfl⟩ | ⟨hname, rfl⟩
      · simp at hhead
      · simp [Item.parenthesized] at hhead
      · simp at hhead
      · exact ⟨rfl, hname⟩
  · obtain rfl := Except.ok.inj hitems
    split at hhead <;> simp at hhead

theorem Fit.select {c : Choice} {items : List Item} (h : Fit (.choice c :: agenda) lexemes)
    (hitems : c.select lexemes[c.depth]? = .ok items) : Fit (items ++ agenda) lexemes where
  guarded := h.guarded.select hitems
  completable := extends_nil_select hitems h.completable
  named := by
    intro hhead
    cases items with
    | nil => exact h.tail.named hhead
    | cons item items =>
      obtain ⟨rfl, hname⟩ := Choice.head?_select hitems hhead
      rwa [List.head?_eq_getElem?]

namespace Session

theorem Advance.fit (hfit : Fit (item :: agenda) s.lexemes)
    (h : s.Advance agenda item agenda' s') : Fit agenda' s'.lexemes := by
  cases h with
  | terminal _ _ => exact hfit.tail
  | rule _ => exact hfit.body
  | close _ => exact hfit.tail
  | choice hitems _ hmoves =>
    have hlexemes : s.lexemes = s'.lexemes := hmoves.lexemes
    exact hlexemes ▸ hfit.select hitems
  | finish _ _ _ => exact hfit.tail

/-! ### Soundness and completeness of a step -/

/-- What completes the agenda completes it after the step, but for what the step has done. -/
theorem Advance.completes (hfit : Fit (item :: agenda) s.lexemes)
    (h : s.Advance agenda item agenda' s') :
    ∃ tokens events, s.Moves s' tokens events ∧ ∀ x,
      Completes (item :: agenda) s.lexemes x ↔
        (Completes agenda').emit events s'.lexemes x := by
  cases h with
  | @terminal t token _ hadmits hmoves =>
    refine ⟨_, _, hmoves, fun x ↦ ?_⟩
    have hlexemes : s.lexemes = token.lexeme :: s'.lexemes := hmoves.lexemes
    rw [hlexemes]
    constructor
    · intro hcompletes
      obtain ⟨l, u, x', -, hu, rfl, hrest⟩ := Terminal.form_before.1 hcompletes
      obtain ⟨rfl, rfl⟩ := List.cons.inj hu
      exact ⟨x', rfl, hrest⟩
    · rintro ⟨x', rfl, hrest⟩
      exact Terminal.form_before.2 ⟨_, _, x', hadmits, rfl, rfl, hrest⟩
  | @rule r _ hmoves =>
    refine ⟨_, _, hmoves, fun x ↦ ?_⟩
    have hlexemes : s.lexemes = s'.lexemes := hmoves.lexemes
    rw [completes_rule, hlexemes]
  | close hmoves =>
    refine ⟨_, _, hmoves, fun x ↦ ?_⟩
    have hlexemes : s.lexemes = s'.lexemes := hmoves.lexemes
    rw [hlexemes]
    rfl
  | @choice c items _ hitems _ hmoves =>
    refine ⟨_, _, hmoves, fun x ↦ ?_⟩
    have hlexemes : s.lexemes = s'.lexemes := hmoves.lexemes
    rw [← hlexemes]
    constructor
    · intro hcompletes
      obtain ⟨items', hitems', hrest⟩ := exists_select_of_completes hfit.guarded hcompletes
      obtain rfl := Except.ok.inj (hitems.symm.trans hitems')
      exact ⟨x, rfl, hrest⟩
    · rintro ⟨x', rfl, hrest⟩
      exact completes_of_select hitems (fun hc ↦ hfit.named (by rw [hc]; rfl)) hrest
  | finish hpending _ hmoves =>
    refine ⟨_, _, hmoves, fun x ↦ ?_⟩
    have hlexemes : s.lexemes = s'.lexemes := hmoves.lexemes
    rw [← hlexemes, lexemes_of_pending_nil hpending]
    constructor
    · rintro ⟨-, hrest⟩
      exact ⟨x, rfl, hrest⟩
    · rintro ⟨x', rfl, hrest⟩
      exact ⟨rfl, hrest⟩

/-- An item does not refuse lexemes that complete the agenda. -/
theorem refusal_of_completes (hguard : Guarded (item :: agenda))
    (h : Completes (item :: agenda) u x) : item.refusal u[item.depth]? = none := by
  cases item with
  | terminal t =>
    obtain ⟨l, u', x', hadmits, rfl, -⟩ := Terminal.form_before.1 h
    exact if_pos hadmits
  | rule r => rfl
  | close r => rfl
  | choice c =>
    obtain ⟨items, hitems, -⟩ := exists_select_of_completes hguard h
    rw [Item.refusal, Item.depth, hitems]
  | finish =>
    obtain ⟨rfl, -⟩ := h
    rfl

/-- What a syntax error says was expected is what the item expects where it looks. -/
theorem Halt.refusal {e : SyntaxError} (h : s.Halt agenda item (.syntactic e)) :
    item.refusal s.lexemes[item.depth]? = some e.expected := by
  rw [lexemes, List.getElem?_map]
  cases h with
  | token htoken hrefusal => rwa [htoken]
  | endOfInput hdepth _ hrefusal => rwa [List.getElem?_eq_none hdepth]

theorem not_halt_of_completes {failure : ParseFailure} (hguard : Guarded (item :: agenda))
    (hend : s.failure = none) (h : Completes (item :: agenda) s.lexemes x) :
    ¬ s.Halt agenda item failure := by
  intro hhalt
  cases failure with
  | lexical e =>
    cases hhalt with
    | lexical _ hfailure => simp [hend] at hfailure
  | syntactic e =>
    have hnone := refusal_of_completes hguard h
    rw [hhalt.refusal] at hnone
    simp at hnone

/-! ### Soundness and completeness of a run -/

/-- A run that reaches the end of the text has found what completes the agenda. -/
theorem completes_of_run (h : s.run agenda = (.ok (), s')) (hfit : Fit agenda s.lexemes)
    (hend : s'.lexemes = []) : ∃ x, s'.events = s.events ++ x ∧ Completes agenda s.lexemes x := by
  refine run_induction (motive := fun s agenda outcome s' ↦ outcome = .ok () →
    Fit agenda s.lexemes → s'.lexemes = [] →
      ∃ x, s'.events = s.events ++ x ∧ Completes agenda s.lexemes x)
    ?nil ?halt ?advance s agenda h rfl hfit hend
  case nil => exact fun s _ _ hnil ↦ ⟨[], (List.append_nil _).symm, hnil, rfl⟩
  case halt => simp
  case advance =>
    intro s agenda item agenda' s₁ outcome s' hadvance ih hok hfit hend
    obtain ⟨x, hx, hrest⟩ := ih hok (hadvance.fit hfit) hend
    obtain ⟨tokens, events, hmoves, hiff⟩ := hadvance.completes hfit
    exact ⟨events ++ x, by rw [hx, hmoves.events_eq, List.append_assoc], (hiff _).2 ⟨x, rfl, hrest⟩⟩

/-- Where lexemes complete the agenda, the run goes well and emits their events. -/
theorem run_of_completes {outcome : Except ParseFailure Unit} (h : s.run agenda = (outcome, s'))
    (hfit : Fit agenda s.lexemes) (hfailure : s.failure = none)
    (hcompletes : Completes agenda s.lexemes x) :
    outcome = .ok () ∧ s'.events = s.events ++ x := by
  refine run_induction (motive := fun s agenda outcome s' ↦ ∀ x, Fit agenda s.lexemes →
    s.failure = none → Completes agenda s.lexemes x → outcome = .ok () ∧ s'.events = s.events ++ x)
    ?nil ?halt ?advance s agenda h x hfit hfailure hcompletes
  case nil =>
    rintro s x - - ⟨-, rfl⟩
    exact ⟨rfl, (List.append_nil _).symm⟩
  case halt =>
    intro s agenda item failure s' hhalt _ x hfit hfailure hcompletes
    exact absurd hhalt (not_halt_of_completes hfit.guarded hfailure hcompletes)
  case advance =>
    intro s agenda item agenda' s₁ outcome s' hadvance ih x hfit hfailure hcompletes
    obtain ⟨tokens, events, hmoves, hiff⟩ := hadvance.completes hfit
    obtain ⟨x', rfl, hrest⟩ := (hiff x).1 hcompletes
    obtain ⟨hok, hevents⟩ :=
      ih x' (hadvance.fit hfit) (hmoves.failure_eq.trans hfailure) hrest
    exact ⟨hok, by rw [hevents, hmoves.events_eq, List.append_assoc]⟩

/-- The end of the text stays on the agenda until it is met. -/
theorem Advance.mem_finish (h : s.Advance agenda item agenda' s')
    (hfinish : .finish ∈ item :: agenda) :
    .finish ∈ agenda' ∨ s.lexemes = [] ∧ s.failure = none := by
  cases h with
  | terminal _ _ => exact .inl (by simpa using hfinish)
  | rule _ => exact .inl (by simp_all)
  | close _ => exact .inl (by simpa using hfinish)
  | choice _ _ _ => exact .inl (by simp_all)
  | finish hpending hfailure _ =>
    exact .inr ⟨lexemes_of_pending_nil hpending, hfailure⟩

/-- A run past the end of the text has consumed all of it, and no error came after. -/
theorem end_of_run (h : s.run agenda = (.ok (), s'))
    (hfinish : .finish ∈ agenda ∨ s.lexemes = [] ∧ s.failure = none) :
    s'.lexemes = [] ∧ s.failure = none := by
  refine run_induction (motive := fun s agenda outcome s' ↦ outcome = .ok () →
    (.finish ∈ agenda ∨ s.lexemes = [] ∧ s.failure = none) → s'.lexemes = [] ∧ s.failure = none)
    ?nil ?halt ?advance s agenda h rfl hfinish
  case nil => simp
  case halt => simp
  case advance =>
    intro s agenda item agenda' s₁ outcome s' hadvance ih hok hfinish
    obtain ⟨tokens, events, hmoves⟩ := hadvance.moves
    have hnext : .finish ∈ agenda' ∨ s.lexemes = [] ∧ s.failure = none :=
      hfinish.elim hadvance.mem_finish .inr
    rw [← hmoves.failure_eq]
    refine ih hok (hnext.imp_right fun ⟨hnil, hfailure⟩ ↦ ?_)
    rw [hmoves.lexemes] at hnil
    exact ⟨(List.append_eq_nil_iff.1 hnil).2, hmoves.failure_eq.trans hfailure⟩

/-! ### A whole class -/

/-- From any session, a class is parsed with just the events of the lexemes left, if they are a
class and no error comes after them. -/
theorem run_class_iff (s : Session) :
    (∃ s', s.run [.rule .classDec, .finish] = (.ok (), s') ∧ s'.events = s.events ++ x) ↔
      s.failure = none ∧ IsClass s.lexemes x := by
  constructor
  · rintro ⟨s', h, hevents⟩
    obtain ⟨hend, hfailure⟩ := end_of_run h (.inl (by simp))
    obtain ⟨x', hx, hcompletes⟩ := completes_of_run h (Fit.start _) hend
    obtain rfl := List.append_cancel_left (hevents.symm.trans hx)
    exact ⟨hfailure, completes_start.1 hcompletes⟩
  · rintro ⟨hfailure, hclass⟩
    obtain ⟨outcome, s', hrun⟩ : ∃ outcome s', s.run [.rule .classDec, .finish] = (outcome, s') :=
      ⟨_, _, rfl⟩
    obtain ⟨rfl, hevents⟩ :=
      run_of_completes hrun (Fit.start _) hfailure (completes_start.2 hclass)
    exact ⟨s', hrun, hevents⟩

/-- A session that has just these lexemes left. -/
def ofLexemes (lexemes : List Lexeme) : Session where
  stream := {
    source := .ofText "" {}
    window := lexemes.map fun l ↦ ⟨l, .empty ⟨1, 1, 0⟩⟩
    exhausted := true }
  endPosition := ⟨1, 1, 0⟩

@[simp]
theorem lexemes_ofLexemes (u : List Lexeme) : (ofLexemes u).lexemes = u := by
  simp [ofLexemes, lexemes, pending, TokenStream.pending, Function.comp_def]

end Session

/-- Lexemes are a class in one way at most. -/
theorem IsClass.events_unique {y : List Event} (hx : IsClass u x) (hy : IsClass u y) : x = y := by
  -- A session that has these lexemes left parses them, and its events are those of either tree.
  let s := Session.ofLexemes u
  have hlexemes : s.lexemes = u := Session.lexemes_ofLexemes u
  obtain ⟨s₁, hrun₁, hevents₁⟩ := s.run_class_iff.2 ⟨rfl, hlexemes.symm ▸ hx⟩
  obtain ⟨s₂, hrun₂, hevents₂⟩ := s.run_class_iff.2 ⟨rfl, hlexemes.symm ▸ hy⟩
  rw [hrun₁] at hrun₂
  obtain rfl := (Prod.mk.inj hrun₂).2
  exact List.append_cancel_left (hevents₁.symm.trans hevents₂)

/-- A fresh session parses a text as a class with the events of the tree that its lexemes have as
one, and so with none if they have no tree or the text cannot be read to its end. -/
theorem Session.runClass_ofText_iff (text : String) (limits : Limits) :
    (∃ s, (ofText text limits).runClass = (.ok (), s) ∧ s.events = x) ↔
      (tokenize text limits).failure = none ∧
        IsClass ((tokenize text limits).tokens.map Token.lexeme) x := by
  refine Iff.trans ?_ (run_class_iff { ofText text limits with used := true })
  have hfresh : (ofText text limits).used = false := rfl
  constructor
  · rintro ⟨s, hclass, hevents⟩
    rcases hrun : run { ofText text limits with used := true } [.rule .classDec, .finish] with
      ⟨failure | _, s'⟩
    · rw [runClass_of_run_error hfresh hrun] at hclass
      simp at hclass
    · rw [runClass_of_run_ok hfresh hrun] at hclass
      obtain rfl := (Prod.mk.inj hclass).2
      exact ⟨s', rfl, hevents⟩
  · rintro ⟨s, hrun, hevents⟩
    exact ⟨s, runClass_of_run_ok hfresh hrun, hevents⟩

/-- The events of a source are those of the tree of its lexemes as a class, if there is one. -/
theorem Source.events_ok_iff (source : Source) (limits : Limits) (events : List Event) :
    source.events limits = .ok events ↔
      (source.reading limits).failure = none ∧
        IsClass ((source.reading limits).tokens.map Token.lexeme) events := by
  refine Iff.trans ?_ (Session.run_class_iff (Session.ofText source.text limits))
  rw [Source.events]
  constructor
  · intro h
    split at h
    · rename_i s hrun
      exact ⟨s, hrun, Except.ok.inj h⟩
    · simp at h
  · rintro ⟨s, hrun, hevents⟩
    rw [hrun]
    exact congrArg Except.ok hevents

/-- The lexemes of a class `A` without members. -/
def emptyClass : List Lexeme :=
  [.keyword .kwClass, .identifier "A", .symbol .leftBrace, .symbol .rightBrace]

/-- The events of a class `A` without members. -/
def emptyClassEvents : List Event :=
  Rule.classDec.opening ++ emptyClass.map Event.ofLexeme ++ Rule.classDec.closing

/-- A class may have no members. -/
theorem isClass_emptyClass : IsClass emptyClass emptyClassEvents := by
  have hclass : (Form.keyword .kwClass).Derives [.keyword .kwClass] _ := .lexeme rfl
  have hname : Form.identifier.Derives [.identifier "A"] _ := .lexeme ⟨"A", rfl⟩
  have hopen : (Form.symbol .leftBrace).Derives [.symbol .leftBrace] _ := .lexeme rfl
  have hclose : (Form.symbol .rightBrace).Derives [.symbol .rightBrace] _ := .lexeme rfl
  exact .rule (.seq (.seq (.seq (.seq (.seq hclass hname) hopen) .stop) .stop) hclose)

/-- A source with these lexemes has these events, whatever trivia is between them. -/
theorem Source.events_of_emptyClass {source : Source} {limits : Limits}
    (h : (source.reading limits).failure = none ∧
      (source.reading limits).tokens.map Token.lexeme = emptyClass) :
    source.events limits = .ok emptyClassEvents :=
  (source.events_ok_iff limits _).2 ⟨h.1, h.2 ▸ isClass_emptyClass⟩

theorem Source.events_emptyClass (name : String) :
    (⟨name, "class A\x7b\x7d"⟩ : Source).events {} = .ok emptyClassEvents := by
  have hread : (tokenize "class A\x7b\x7d" {}).failure = none ∧
      (tokenize "class A\x7b\x7d" {}).tokens.map Token.lexeme = emptyClass := by decide +kernel
  exact Source.events_of_emptyClass hread

/-- A source has no events for the reason that a session asked for the class gives. -/
theorem Source.events_of_runClass_error {source : Source} {limits : Limits}
    {failure : ParseFailure} (h : (Session.ofText source.text limits).runClass =
      (.error (.parse failure), s)) :
    source.events limits = .error (failure.diagnostic source) := by
  rw [Session.runClass_eq rfl] at h
  rcases hrun : (Session.ofText source.text limits).run [.rule .classDec, .finish] with
    ⟨failure' | answer, s'⟩
  · rw [hrun] at h
    obtain ⟨hfailure, -⟩ := Prod.mk.inj h
    obtain rfl := Session.ClassFailure.parse.inj (Except.error.inj hfailure)
    rw [Source.events, hrun]
  · rw [hrun] at h
    exact absurd (Prod.mk.inj h).1 (by simp)

/-- The events of a source are those of the tree that its lexemes have as a class. It has none if it
cannot be read to its end or its lexemes are no class. A session asked for the class goes by the
same. -/
theorem Source.events_eq_ok_iff (source : Source) (limits : Limits) (events : List Event) :
    (source.events limits = .ok events ↔
      (source.reading limits).failure = none ∧
        IsClass ((source.reading limits).tokens.map Token.lexeme) events) ∧
    ((∃ s, (Session.ofText source.text limits).runClass = (.ok (), s) ∧ s.events = events) ↔
      (source.reading limits).failure = none ∧
        IsClass ((source.reading limits).tokens.map Token.lexeme) events) := by
  refine ⟨?run, ?runClass⟩
  case run => exact source.events_ok_iff limits events
  case runClass => exact Session.runClass_ofText_iff source.text limits

end JackSyntax
