import JackSyntax.Proofs.Parser.Composition
import JackSyntax.Proofs.Parser.OpenElements

/-!
# The events of a whole class

A class is its body between its start and its end (`Session.run_class_eq`), and nothing in the body
ends it (`Session.run_inside`). So the events of a class are one element, and those of a parse that
failed are balanced only if the class had ended by then.

## Main statements

* `IsClass.rooted`: the events of a class are one element.
* `Session.classFails_of_run`: what is open after a failed parse.
* `Scoped.performAll_settles`: the stack and the elements after any calls.
-/

namespace JackSyntax

variable {s s' : Session} {item : Item} {agenda agenda' : List Item}

/-! ### One element -/

/-- The events are one element of the name, and balanced. -/
def Rooted (name : String) (events : List Event) : Prop :=
  ∃ inner, events = .enter name :: inner ++ [.leave name] ∧ balanced inner = true

/-- Events of one element are balanced. -/
theorem Rooted.balanced {name : String} {events : List Event} (h : Rooted name events) :
    balanced events = true := by
  obtain ⟨inner, rfl, hinner⟩ := h
  rw [balanced_iff] at hinner ⊢
  have hwithin := unclosed_within [name] hinner
  rw [List.cons_append, unclosed]
  rw [List.nil_append] at hwithin
  rw [unclosed_append_of_eq hwithin]
  simp [unclosed]

/-- The events of a derivation leave the elements around it as they are. -/
theorem Form.Derives.unclosed_eq {f : Form} {u : List Lexeme} {x : List Event}
    (h : f.Derives u x) (opened : List String) :
    unclosed opened x = Option.some opened := by
  induction h generalizing opened with
  | lexeme _ => rfl
  | @rule r u x _ ih =>
    cases htagged : r.tagged with
    | false => simpa [Rule.opening, Rule.closing, htagged] using ih opened
    | true =>
      simp only [Rule.opening, Rule.closing, htagged, if_true, List.cons_append, List.nil_append]
      rw [unclosed, unclosed_append_of_eq (ih _)]
      simp [unclosed]
  | seq _ _ ihf ihg => rw [unclosed_append_of_eq (ihf opened), ihg]
  | left _ ih => exact ih opened
  | right _ ih => exact ih opened
  | none => rfl
  | some _ ih => exact ih opened
  | stop => rfl
  | more _ _ ihf ihrest => rw [unclosed_append_of_eq (ihf opened), ihrest]

/-- The events of a class are those of one element. -/
theorem IsClass.rooted {u : List Lexeme} {x : List Event} (h : IsClass u x) : Rooted "class" x := by
  cases h with
  | @rule _ _ inner h => exact ⟨inner, rfl, balanced_iff.2 (h.unclosed_eq [])⟩

/-! ### Inside a class -/

/-- Whether the item stands inside a class. -/
def Item.inside : Item → Bool
  | close r => r != .classDec
  | item => item.selectable

/-- What can be selected is inside a class. -/
theorem inside_of_selectable (h : item.selectable = true) : item.inside = true := by
  cases item with
  | close r => simp [Item.selectable] at h
  | _ => exact h

/-- Only the item that asks for the end of the text is refused for want of it. -/
theorem Item.refusal_ne_endOfInput {ahead : Option Lexeme} (h : item ≠ .finish) :
    item.refusal ahead ≠ some .endOfInput := by
  cases item with
  | terminal t => simp [refusal]
  | choice c =>
    rw [refusal]
    split
    · rename_i hselect
      rcases Choice.expected_of_select hselect with ⟨-, rfl⟩ | ⟨-, rfl⟩ <;> simp
    · simp
  | finish => exact absurd rfl h
  | _ => simp [refusal]

namespace Session

variable {failure : ParseFailure}

/-- What is done inside a class stays inside it. -/
theorem Advance.inside (hinside : ∀ i ∈ item :: agenda, i.inside = true)
    (h : s.Advance agenda item agenda' s') : ∀ i ∈ agenda', i.inside = true := by
  obtain ⟨hitem, hagenda⟩ := List.forall_mem_cons.1 hinside
  cases h with
  | terminal _ _ => exact hagenda
  | @rule r _ _ =>
    have hclose : (Item.close r).inside = true := by
      cases r <;> simp [Item.inside, Item.selectable] at hitem ⊢
    intro i hi
    rcases List.mem_append.1 hi with hbody | hrest
    · exact inside_of_selectable (r.selectable_body i hbody)
    · rcases List.mem_cons.1 hrest with rfl | hrest
      · exact hclose
      · exact hagenda i hrest
  | close _ => exact hagenda
  | choice hitems _ _ =>
    intro i hi
    rcases List.mem_append.1 hi with hselected | hrest
    · exact inside_of_selectable (selectable_of_select hitems i hselected)
    · exact hagenda i hrest
  | finish _ _ _ => exact hagenda

/-- A step inside a class does not end it. -/
theorem Advance.not_leave (hitem : item.inside = true) (h : s.Advance agenda item agenda' s') :
    ∃ tokens events, s.Moves s' tokens events ∧ Event.leave "class" ∉ events := by
  cases h with
  | terminal _ hmoves => exact ⟨_, _, hmoves, by simp [Token.event, Event.ofLexeme]⟩
  | @rule r _ hmoves =>
    refine ⟨_, _, hmoves, ?_⟩
    cases htagged : r.tagged <;> simp [Rule.opening, htagged]
  | @close r _ hmoves =>
    refine ⟨_, _, hmoves, ?_⟩
    cases r <;> simp [Item.inside, Rule.closing, Rule.tagged, Rule.name] at hitem ⊢
  | choice _ _ hmoves => exact ⟨_, _, hmoves, by simp⟩
  | finish _ _ hmoves => exact ⟨_, _, hmoves, by simp⟩

/-- A run inside a class does not end it, and does not ask for the end of the text. -/
theorem run_inside {outcome : Except ParseFailure Unit} (h : s.run agenda = (outcome, s'))
    (hinside : ∀ i ∈ agenda, i.inside = true) :
    ∃ tokens appended, s.Moves s' tokens appended ∧ Event.leave "class" ∉ appended ∧
      ∀ e, outcome = .error (.syntactic e) → e.expected ≠ .endOfInput := by
  refine run_induction (motive := fun s agenda outcome s' ↦ (∀ i ∈ agenda, i.inside = true) →
    ∃ tokens appended, s.Moves s' tokens appended ∧ Event.leave "class" ∉ appended ∧
      ∀ e, outcome = .error (.syntactic e) → e.expected ≠ .endOfInput)
    ?nil ?halt ?advance s agenda h hinside
  case nil => exact fun s _ ↦ ⟨[], [], Moves.refl s, by simp, by simp⟩
  case halt =>
    intro s agenda item failure s' hhalt hmoves hinside
    refine ⟨[], [], hmoves, by simp, fun e he hexpected ↦ ?_⟩
    obtain rfl := Except.error.inj he
    have hitem : item ≠ .finish := by
      rintro rfl
      simpa [Item.inside, Item.selectable] using hinside .finish (by simp)
    exact Item.refusal_ne_endOfInput hitem (hexpected ▸ hhalt.refusal)
  case advance =>
    intro s agenda item agenda' s₁ outcome s' hadvance ih hinside
    obtain ⟨tokens, events, hmoves, hnot⟩ := hadvance.not_leave (hinside item (by simp))
    obtain ⟨more, later, hrest, hnot', hexpected⟩ := ih (hadvance.inside hinside)
    refine ⟨_, _, hmoves.trans hrest, fun hmem ↦ ?_, hexpected⟩
    exact (List.mem_append.1 hmem).elim hnot hnot'

/-- A run without rules to end leaves elements open only if it fails. -/
theorem run_unclosed {outcome : Except ParseFailure Unit} (h : s.run agenda = (outcome, s'))
    (hrules : rulesInForce agenda = []) (hcalls : CallsEnclosed agenda) :
    ∃ appended, s'.events = s.events ++ appended ∧
      (outcome = .ok () → unclosed [] appended = some []) ∧
      ∃ opened, unclosed [] appended = some opened := by
  obtain ⟨tokens, appended, hmoves, hends⟩ := Scoped.run_ends ⟨s, []⟩ agenda
    (by rw [hrules, List.nil_append]) hcalls
  obtain ⟨hsession, houtcome⟩ := Scoped.run_plain ⟨s, []⟩ agenda hrules.symm
  simp only [h] at hsession houtcome
  rw [hsession] at hmoves
  rw [hrules] at hends
  refine ⟨appended, hmoves.events_eq, ?_, ?_⟩
  · rintro rfl
    cases hrun : (Scoped.run ⟨s, []⟩ agenda).1 with
    | error raised => simp [hrun] at houtcome
    | ok answer => exact hends.closed answer hrun
  · cases hrun : (Scoped.run ⟨s, []⟩ agenda).1 with
    | error raised =>
      obtain ⟨active, -, hopen, -, -⟩ := hends.raised raised hrun
      exact ⟨_, hopen⟩
    | ok answer => exact ⟨_, hends.closed answer hrun⟩

/-! ### A class and what follows -/

/-- A class is its body between its start and its end. -/
theorem run_class_eq (s : Session) :
    s.run [.rule .classDec] =
      match (s.enter .classDec).run Rule.classDec.body with
      | (.ok (), s') => (.ok (), s'.leave .classDec)
      | (.error failure, s') => (.error (failure.around (some .classDec)), s') := by
  have hstep : s.step [] (.rule .classDec) =
      (.ok (Rule.classDec.body ++ [.close .classDec]), s.enter .classDec) := rfl
  rw [run_of_step_ok hstep, run_append]
  rcases (s.enter .classDec).run Rule.classDec.body with ⟨failure | answer, s'⟩
  · rfl
  · have hclose : s'.step [] (.close .classDec) = (.ok [], s'.leave .classDec) := rfl
    simp only [run_of_step_ok hclose, run_nil]

end Session

/-- What the events of a failed parse of a class are like, by whether the class had ended. -/
structure ClassFails (failure : ParseFailure) (events : List Event) : Prop where
  balanced_iff : balanced events = true ↔ .leave "class" ∈ events
  /-- After its end comes a token too many, or what is no token. -/
  after : .leave "class" ∈ events →
    (∃ e token, failure = .syntactic e ∧ e.expected = .endOfInput ∧ e.found = .token token) ∨
      ∃ e, failure = .lexical e
  /-- A token is too many only after its end. -/
  surplus : ∀ e, failure = .syntactic e → e.expected = .endOfInput → .leave "class" ∈ events
  /-- Before its end the class is open, and all else that is open is inside it. -/
  before : .leave "class" ∉ events → ∃ inner, unclosed [] events = some (inner ++ ["class"])

/-- In the body of a class it has not ended. -/
theorem ClassFails.of_body {cause : ParseFailure} {inner : List Event} {opened : List String}
    (hopened : unclosed [] inner = some opened) (hnot : .leave "class" ∉ inner)
    (hexpected : ∀ e, cause = .syntactic e → e.expected ≠ .endOfInput) :
    ClassFails (cause.around (some .classDec)) (.enter "class" :: inner) := by
  have hopen : unclosed [] (.enter "class" :: inner) = some (opened ++ ["class"]) :=
    unclosed_within ["class"] hopened
  have hmem : Event.leave "class" ∉ .enter "class" :: inner := by simpa using hnot
  refine ⟨iff_of_false (fun hbalanced ↦ ?_) hmem, fun h ↦ absurd h hmem, fun e he hend ↦ ?_,
    fun _ ↦ ⟨_, hopen⟩⟩
  · rw [JackSyntax.balanced_iff, hopen] at hbalanced
    simp at hbalanced
  · cases cause with
    | lexical e => simp [ParseFailure.around] at he
    | syntactic e' =>
      obtain rfl := ParseFailure.syntactic.inj he
      exact absurd hend (hexpected e' rfl)

/-- Where the text should end the class has ended. -/
theorem ClassFails.of_finish {failure : ParseFailure} {inner : List Event}
    (hclosed : unclosed [] inner = some []) (hhalt : s.Halt [] .finish failure) :
    ClassFails failure (.enter "class" :: inner ++ [.leave "class"]) := by
  have hrooted : Rooted "class" (.enter "class" :: inner ++ [.leave "class"]) :=
    ⟨inner, rfl, JackSyntax.balanced_iff.2 hclosed⟩
  have hmem : Event.leave "class" ∈ .enter "class" :: inner ++ [.leave "class"] := by simp
  refine ⟨iff_of_true hrooted.balanced hmem, fun _ ↦ ?_, fun _ _ _ ↦ hmem,
    fun h ↦ absurd hmem h⟩
  cases hhalt with
  | lexical _ _ => exact .inr ⟨_, rfl⟩
  | token _ hrefusal =>
    obtain rfl := Option.some.inj hrefusal
    exact .inl ⟨_, _, rfl, rfl, rfl⟩
  | endOfInput _ _ hrefusal => simp [Item.refusal] at hrefusal

/-- A class that is not parsed fails in one of these ways. -/
theorem Session.classFails_of_run {failure : ParseFailure}
    (h : s.run [.rule .classDec, .finish] = (.error failure, s')) :
    ∃ appended, s'.events = s.events ++ appended ∧ ClassFails failure appended := by
  obtain ⟨outcome, s₁, hrun⟩ : ∃ outcome s₁,
      (s.enter .classDec).run Rule.classDec.body = (outcome, s₁) := ⟨_, _, rfl⟩
  obtain ⟨inner, hevents, hclosed, opened, hopened⟩ :=
    run_unclosed hrun (rulesInForce_body _) (by simp [Rule.body, CallsEnclosed, Item.maybeCall])
  obtain ⟨tokens, inner', hmoves, hnot, hexpected⟩ :=
    run_inside hrun fun i hi ↦ inside_of_selectable (Rule.selectable_body _ i hi)
  obtain rfl : inner = inner' := List.append_cancel_left (hevents.symm.trans hmoves.events_eq)
  have henter : (s.enter .classDec).events = s.events ++ [.enter "class"] := events_emit _ _
  have hbody : s₁.events = s.events ++ .enter "class" :: inner := by
    rw [hevents, henter, List.append_assoc]
    rfl
  have hwhole : s.run ([.rule .classDec] ++ [.finish]) = (.error failure, s') := h
  rw [run_append, run_class_eq, hrun] at hwhole
  cases outcome with
  | error cause =>
    have hnone : innermostRule [.finish] = none := rfl
    simp only [hnone, ParseFailure.around_none] at hwhole
    obtain ⟨hfailure, rfl⟩ := Prod.mk.inj hwhole
    obtain rfl := Except.error.inj hfailure
    exact ⟨_, hbody, .of_body hopened hnot fun e he ↦ hexpected e (congrArg Except.error he)⟩
  | ok answer =>
    rcases hfinish : (s₁.leave .classDec).step [] .finish with ⟨failure' | agenda', s₂⟩
    · simp only [run_of_step_error hfinish] at hwhole
      obtain ⟨hfailure, rfl⟩ := Prod.mk.inj hwhole
      obtain rfl := Except.error.inj hfailure
      obtain ⟨hhalt, hlast⟩ := halt_of_step hfinish
      refine ⟨_, ?_, .of_finish (hclosed rfl) hhalt⟩
      have hleave : (s₁.leave .classDec).events = s₁.events ++ [.leave "class"] := events_emit _ _
      rw [hlast.events_eq, List.append_nil, hleave, hbody, List.append_assoc]
    · cases advance_of_step hfinish with
      | finish _ _ _ => simp [run_of_step_ok hfinish, run_nil] at hwhole

namespace Scoped

/-- The stack changes nothing else, whatever is called. -/
theorem performAll_plain (σ : Scoped) (calls : List Call) (hrules : σ.rules = []) :
    (σ.performAll calls).session = σ.session.performAll calls ∧
      (σ.performAll calls).rules = [] := by
  induction calls generalizing σ with
  | nil => exact ⟨rfl, hrules⟩
  | cons call calls ih =>
    obtain ⟨appended, hsettles⟩ := σ.exists_settles call hrules
    obtain ⟨hsession, -⟩ := σ.perform_plain call hrules
    rw [Session.performAll_cons, ← hsession]
    exact ih _ (hsettles.rules_eq.trans hrules)

/-- After any calls on a session of a text, however they ended, the session is in no rule, and one
more call settles what it begins: it leaves the stack of rules as it was, closes what it opens if it
returns, and leaves open just the elements of the rules active where it fails. So a class that is
parsed is one element. One that is not is balanced just when it had ended before the failure, and is
open otherwise. -/
theorem performAll_settles (text : String) (limits : Limits) (calls : List Call) :
    let σ := (ofText text limits).performAll calls
    (σ.session = (Session.ofText text limits).performAll calls ∧ σ.rules = []) ∧
    (∀ call, ((σ.perform call).2.session = (σ.session.perform call).2 ∧
      (σ.perform call).1.mapError Raised.failure = (σ.session.perform call).1) ∧
        ∃ appended, σ.Settles call appended) ∧
    (∀ s answer, (Session.ofText text limits).perform .compile = (.ok answer, s) →
      balanced s.events = true ∧ Rooted "class" s.events) ∧
    ∀ s failure, (Session.ofText text limits).perform .compile = (.error (.parse failure), s) →
      ClassFails failure s.events := by
  intro σ
  have hplain := (ofText text limits).performAll_plain calls rfl
  refine ⟨hplain, fun call ↦ ⟨σ.perform_plain call hplain.2, σ.exists_settles call hplain.2⟩,
    ?returned, ?failed⟩
  case returned =>
    intro s answer h
    rw [Session.perform] at h
    rcases hclass : (Session.ofText text limits).runClass with ⟨failure | _, s'⟩
    · simp [hclass, Except.map] at h
    · simp only [hclass] at h
      obtain ⟨-, rfl⟩ := Prod.mk.inj h
      obtain ⟨-, hderived⟩ := (Session.runClass_ofText_iff text limits).1 ⟨s', hclass, rfl⟩
      exact ⟨hderived.rooted.balanced, hderived.rooted⟩
  case failed =>
    intro s failure h
    let start : Session := { Session.ofText text limits with used := true }
    rcases hrun : start.run [.rule .classDec, .finish] with ⟨cause | _, s'⟩
    · rw [Session.perform, Session.runClass_of_run_error rfl hrun] at h
      obtain ⟨hfailure, rfl⟩ := Prod.mk.inj h
      obtain rfl := Session.ClassFailure.parse.inj (Except.error.inj hfailure)
      obtain ⟨appended, hevents, hfails⟩ := Session.classFails_of_run hrun
      have hall : s'.events = appended := hevents
      exact hall ▸ hfails
    · rw [Session.perform, Session.runClass_of_run_ok rfl hrun] at h
      simp [Except.map] at h

end Scoped

end JackSyntax
