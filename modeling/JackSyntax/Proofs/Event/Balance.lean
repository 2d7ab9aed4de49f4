import JackSyntax.Event

/-!
# Elements left open

`balanced` only says whether events make a tree. `unclosed` says what is missing where they do not:
the elements that are still open after the events, or that an element has ended under a wrong name.
Events in a row are read one part after the other (`unclosed_append`), and elements that were open
before do not matter to events that leave them alone (`unclosed_within`).
-/

namespace JackSyntax

variable {opened opened' : List String} {x y : List Event}

/-- The elements open after the events, innermost first, where some are open before. There is no
answer if an element ends that is not the innermost one open. -/
def unclosed : (opened : List String) → List Event → Option (List String)
  | opened, [] => some opened
  | opened, .enter name :: events => unclosed (name :: opened) events
  | opened, .terminal _ _ :: events => unclosed opened events
  | [], .leave _ :: _ => none
  | top :: opened, .leave name :: events =>
    if top = name then unclosed opened events else none

/-- What is open after two sequences of events is what the second leaves of the first. -/
theorem unclosed_append (opened : List String) (x y : List Event) :
    unclosed opened (x ++ y) = (unclosed opened x).bind (unclosed · y) := by
  fun_induction unclosed opened x with
  | case1 opened => rfl
  | case2 opened name x ih => exact ih
  | case3 opened kind text x ih => exact ih
  | case4 name x => rfl
  | case5 top opened x ih =>
    rw [List.cons_append, unclosed, if_pos rfl]
    exact ih
  | case6 top opened name x hname =>
    rw [List.cons_append, unclosed, if_neg hname]
    rfl

theorem unclosed_append_of_eq (hx : unclosed opened x = some opened') :
    unclosed opened (x ++ y) = unclosed opened' y := by
  rw [unclosed_append, hx, Option.bind_some]

/-- Elements around those that the events are about stay open. -/
theorem unclosed_within (outer : List String) (h : unclosed opened x = some opened') :
    unclosed (opened ++ outer) x = some (opened' ++ outer) := by
  fun_induction unclosed opened x with
  | case1 opened =>
    obtain rfl := Option.some.inj h
    rfl
  | case2 opened name x ih => exact ih h
  | case3 opened kind text x ih => exact ih h
  | case4 name x => simp at h
  | case5 top opened x ih =>
    rw [List.cons_append, unclosed, if_pos rfl]
    exact ih h
  | case6 top opened name x hname => simp at h

/-- Events close all that they open just when they leave nothing open. -/
theorem balancedWithin_iff : balancedWithin opened x = true ↔ unclosed opened x = some [] := by
  fun_induction unclosed opened x with
  | case1 opened => simp [balancedWithin]
  | case2 opened name x ih => exact ih
  | case3 opened kind text x ih => exact ih
  | case4 name x => simp [balancedWithin]
  | case5 top opened x ih => simpa [balancedWithin] using ih
  | case6 top opened name x hname => simp [balancedWithin, hname]

/-- Events are balanced if they leave nothing open and close nothing else. -/
theorem balanced_iff : balanced x = true ↔ unclosed [] x = some [] :=
  balancedWithin_iff

end JackSyntax
