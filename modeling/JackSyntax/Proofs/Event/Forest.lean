import JackSyntax.Proofs.Event.Balance

/-!
# Forests

What balanced events are, without a reader that goes through them: they make a forest, in which an
element stands around a forest again (`Forest`). The reader is in the middle of elements most of the
time, so the induction is about events that close some elements and are forests in between
(`Closing`). Each event in front of such events keeps them such, and no others are accepted.

## Main statements

* `balancedWithin_iff_closing`: what is accepted where some elements are open.
* `balanced_iff_forest`: events are balanced if they make a forest.
-/

namespace JackSyntax

variable {opened : List String} {x y : List Event} {name : String}

/-- The events of a forest: terminals and elements one after the other, where an element is its
start, a forest and its end under the same name. -/
inductive Forest : List Event → Prop
  | nil : Forest []
  | terminal (kind text : String) : Forest [.terminal kind text]
  | append {x y : List Event} (hx : Forest x) (hy : Forest y) : Forest (x ++ y)
  | element {x : List Event} (name : String) (hx : Forest x) :
    Forest (.enter name :: (x ++ [.leave name]))

/-- Events that close the elements, innermost first: a forest before the end of each, and one after
all of them. -/
inductive Closing : List String → List Event → Prop
  | all {x : List Event} (hx : Forest x) : Closing [] x
  | leave {top : String} {opened : List String} {x y : List Event} (hx : Forest x)
    (hy : Closing opened y) : Closing (top :: opened) (x ++ .leave top :: y)

/-! ### Forests are accepted -/

/-- A forest closes what it opens, and nothing else. -/
theorem Forest.unclosed_eq (h : Forest x) (opened : List String) :
    unclosed opened x = some opened := by
  induction h generalizing opened with
  | nil => rfl
  | terminal kind text => rfl
  | append _ _ ihx ihy => rw [unclosed_append_of_eq (ihx opened), ihy opened]
  | element name _ ih =>
    rw [unclosed, unclosed_append_of_eq (ih (name :: opened))]
    exact if_pos rfl

theorem Closing.unclosed_eq (h : Closing opened x) : unclosed opened x = some [] := by
  induction h with
  | all hx => exact hx.unclosed_eq []
  | @leave top opened _ _ hx _ ih =>
    rw [unclosed_append_of_eq (hx.unclosed_eq (top :: opened))]
    exact (if_pos rfl).trans ih

/-! ### What is accepted -/

theorem closing_nil_iff : Closing [] x ↔ Forest x := by
  constructor
  · rintro ⟨hx⟩
    exact hx
  · exact .all

/-- A forest in front closes nothing. -/
theorem Forest.closing_append (hx : Forest x) (hy : Closing opened y) :
    Closing opened (x ++ y) := by
  cases hy with
  | all hy => exact .all (hx.append hy)
  | leave hy hmore =>
    rw [← List.append_assoc]
    exact .leave (hx.append hy) hmore

/-- The start of the innermost element in front makes it a tree, which closes nothing. -/
theorem Closing.enter (h : Closing (name :: opened) y) : Closing opened (.enter name :: y) := by
  cases h with
  | @leave _ _ x y hx hy =>
    have htree := (Forest.element name hx).closing_append hy
    rwa [List.cons_append, List.append_assoc, List.singleton_append] at htree

/-- By the recursion of `unclosed`: each event goes in front of those that close what is open after
it. -/
theorem closing_of_unclosed (h : unclosed opened x = some []) : Closing opened x := by
  fun_induction unclosed opened x with
  | case1 opened =>
    obtain rfl := Option.some.inj h
    exact .all .nil
  | case2 opened name x ih => exact (ih h).enter
  | case3 opened kind text x ih => exact (Forest.terminal kind text).closing_append (ih h)
  | case4 name x => simp at h
  | case5 top opened x ih => exact .leave .nil (ih h)
  | case6 top opened name x hname => simp at h

/-- Where elements are open, the events accepted are those that close them. -/
theorem balancedWithin_iff_closing : balancedWithin opened x = true ↔ Closing opened x :=
  balancedWithin_iff.trans ⟨closing_of_unclosed, Closing.unclosed_eq⟩

/-- Events are balanced exactly if they make a forest. -/
theorem balanced_iff_forest (events : List Event) : balanced events = true ↔ Forest events :=
  balancedWithin_iff_closing.trans closing_nil_iff

end JackSyntax
