import JackSyntax.Markup
import JackSyntax.Proofs.Event.Balance

/-!
# Which events have markup

Events are balanced if every element ends under its own name, but markup is made by counting the
elements that are open. So there is markup for the events that are balanced once all elements have
the same name (`renderFrom_isOk_iff`), and these are the balanced ones and those in which an element
ends under the name of another (`EndsMisnamed`).

## Main statements

* `balanced_iff_renders`: events are balanced if they have markup and no element ends misnamed.
* `renders_misnamed`: an element that starts and ends under two names has markup.
-/

namespace JackSyntax

variable {opened opened' : List String} {e : Event} {events : List Event}

/-- The event without the name of its element. -/
def Event.unnamed : Event → Event
  | enter _ => enter ""
  | terminal kind text => terminal kind text
  | leave _ => leave ""

/-- An element ends, but not the one that is named: the innermost open one has another name. -/
def EndsMisnamed (opened : List String) (events : List Event) : Prop :=
  ∃ before name after top rest, events = before ++ .leave name :: after ∧
    unclosed opened before = some (top :: rest) ∧ top ≠ name

/-! ### Markup counts -/

/-- There is markup if the events are balanced but for the names. -/
theorem renderFrom_isOk_iff (depth : Nat) (written : String) (events : List Event) :
    (∃ markup, renderFrom depth written events = .ok markup) ↔
      unclosed (List.replicate depth "") (events.map Event.unnamed) = some [] := by
  induction events generalizing depth written with
  | nil =>
    rw [renderFrom]
    cases depth with
    | zero => simp [unclosed]
    | succ depth => simp [unclosed, List.replicate_succ]
  | cons e events ih =>
    cases e with
    | enter name => exact ih (depth + 1) _
    | terminal kind text => exact ih depth _
    | leave name =>
      cases depth with
      | zero => simp [renderFrom, unclosed, Event.unnamed]
      | succ depth =>
        rw [renderFrom, ih, List.map_cons, List.replicate_succ, Event.unnamed, unclosed, if_pos rfl]

theorem render_isOk_iff (events : List Event) :
    (∃ markup, render events = .ok markup) ↔ balanced (events.map Event.unnamed) = true := by
  rw [render, renderFrom_isOk_iff, balanced_iff, List.replicate_zero]

/-! ### Misnamed ends -/

theorem not_endsMisnamed_nil : ¬ EndsMisnamed opened [] := by
  rintro ⟨before, name, after, -, -, hevents, -⟩
  simp at hevents

/-- An element ends misnamed if the first event is such an end, or if one comes after it. -/
theorem endsMisnamed_cons : EndsMisnamed opened (e :: events) ↔
    (∃ name top rest, e = .leave name ∧ opened = top :: rest ∧ top ≠ name) ∨
      ∃ opened', unclosed opened [e] = some opened' ∧ EndsMisnamed opened' events := by
  constructor
  · rintro ⟨before, name, after, top, rest, hevents, hopen, hne⟩
    cases before with
    | nil =>
      obtain ⟨rfl, -⟩ := List.cons.inj hevents
      exact .inl ⟨name, top, rest, rfl, Option.some.inj hopen, hne⟩
    | cons first before =>
      obtain ⟨rfl, rfl⟩ := List.cons.inj hevents
      rw [← List.singleton_append, unclosed_append] at hopen
      obtain ⟨opened', hfirst, hopen⟩ := Option.bind_eq_some_iff.1 hopen
      exact .inr ⟨opened', hfirst, before, name, after, top, rest, rfl, hopen, hne⟩
  · rintro (⟨name, top, rest, rfl, rfl, hne⟩ | ⟨opened', hfirst, before, name, after, top, rest,
      rfl, hopen, hne⟩)
    · exact ⟨[], name, events, top, rest, rfl, rfl, hne⟩
    · refine ⟨e :: before, name, after, top, rest, rfl, ?_, hne⟩
      rw [← List.singleton_append, unclosed_append_of_eq hfirst, hopen]

/-- What an event leaves open is all that matters of it, unless it ends an element misnamed. -/
theorem endsMisnamed_cons_of_unclosed (h : unclosed opened [e] = some opened') :
    EndsMisnamed opened (e :: events) ↔ EndsMisnamed opened' events := by
  rw [endsMisnamed_cons, h]
  constructor
  · rintro (⟨name, top, rest, rfl, rfl, hne⟩ | ⟨_, hsame, hrest⟩)
    · simp [unclosed, hne] at h
    · obtain rfl := Option.some.inj hsame
      exact hrest
  · exact fun hrest ↦ .inr ⟨opened', rfl, hrest⟩

/-- Elements are all closed if they are by number and none ends misnamed. -/
theorem unclosed_eq_nil_iff (opened : List String) (events : List Event) :
    unclosed opened events = some [] ↔
      unclosed (List.replicate opened.length "") (events.map Event.unnamed) = some [] ∧
        ¬ EndsMisnamed opened events := by
  fun_induction unclosed opened events with
  | case1 opened =>
    cases opened with
    | nil => simp [unclosed, not_endsMisnamed_nil]
    | cons top opened => simp [unclosed, List.replicate_succ]
  | case2 opened name events ih =>
    have hfirst : unclosed opened [.enter name] = some (name :: opened) := rfl
    rw [endsMisnamed_cons_of_unclosed hfirst]
    exact ih
  | case3 opened kind text events ih =>
    have hfirst : unclosed opened [.terminal kind text] = some opened := rfl
    rw [endsMisnamed_cons_of_unclosed hfirst]
    exact ih
  | case4 name events => simp [unclosed, Event.unnamed]
  | case5 opened name events ih =>
    have hfirst : unclosed (name :: opened) [.leave name] = some opened := if_pos rfl
    rw [endsMisnamed_cons_of_unclosed hfirst, List.length_cons, List.replicate_succ, List.map_cons,
      Event.unnamed, unclosed, if_pos rfl]
    exact ih
  | case6 top opened name events hname =>
    have hmisnamed : EndsMisnamed (top :: opened) (.leave name :: events) :=
      endsMisnamed_cons.2 (.inl ⟨name, top, opened, rfl, rfl, hname⟩)
    simp [hmisnamed]

/-- Events have markup if they are balanced but for the names of elements. They are balanced, names
and all, just if they have markup and no element ends misnamed. -/
theorem balanced_iff_renders (events : List Event) :
    ((∃ markup, render events = .ok markup) ↔ balanced (events.map Event.unnamed) = true) ∧
    (balanced events = true ↔
      (∃ markup, render events = .ok markup) ∧ ¬ EndsMisnamed [] events) := by
  refine ⟨render_isOk_iff events, ?_⟩
  rw [render_isOk_iff, balanced_iff, balanced_iff]
  exact unclosed_eq_nil_iff [] events

/-- An element that starts and ends under two names has markup, though its events are not
balanced. -/
theorem renders_misnamed :
    balanced [.enter "a", .leave "b"] = false ∧
      render [.enter "a", .leave "b"] = .ok "<a>\n</b>\n" :=
  ⟨rfl, rfl⟩

end JackSyntax
