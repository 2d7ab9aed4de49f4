import JackSyntax.Proofs.Event.Balance
import JackSyntax.Proofs.Markup.Lines

/-!
# Outlines

An outline lists the elements and terminals that events come to, each with the number of elements
around it (`outline`). The ends of elements are not in it. For balanced events they are not missed:
an element ends before the first entry that is not deeper than it, and those left over at the end
of the outline end there, innermost first and under the names they have. So the events can be put
together again (`assemble`).

## Main statements

* `assemble_outline`: balanced events are assembled from their outline.
-/

namespace JackSyntax

/-- An element or a terminal and how deep it lies. -/
structure Entry where
  /-- How many elements are around it. -/
  depth : Nat
  /-- The name of the element, or of the kind of the terminal. -/
  name : String
  /-- The text, if it is a terminal. -/
  text : Option String
deriving DecidableEq, Repr

/-- The start of the element, or the terminal. -/
def Entry.event (entry : Entry) : Event :=
  match entry.text with
  | none => .enter entry.name
  | some text => .terminal entry.name text

theorem Entry.tag_event (entry : Entry) : entry.event.tag = entry.name := by
  obtain ⟨depth, name, text⟩ := entry
  cases text <;> rfl

/-- The entry together with the elements around it, innermost first: those open after it. -/
def Entry.openedAfter (around : List String) (entry : Entry) : List String :=
  match entry.text with
  | none => entry.name :: around
  | some _ => around

/-- The elements and terminals of events that come inside `depth` elements. -/
def outline : (depth : Nat) → List Event → List Entry
  | _, [] => []
  | depth, .enter name :: events => ⟨depth, name, none⟩ :: outline (depth + 1) events
  | depth, .terminal kind text :: events => ⟨depth, kind, some text⟩ :: outline depth events
  | depth, .leave _ :: events => outline (depth - 1) events

/-- Events with such an outline, where some elements are open before. Before an entry all open
elements end that are not around it, and after the last entry all that are open. -/
def assemble : (opened : List String) → List Entry → List Event
  | opened, [] => opened.map .leave
  | opened, entry :: entries =>
    let ended := opened.length - entry.depth
    (opened.take ended).map .leave ++
      entry.event :: assemble (entry.openedAfter (opened.drop ended)) entries

variable {opened : List String} {x : List Event} {entries : List Entry}

/-- Nothing ends before an entry that all open elements are around. -/
theorem assemble_cons {entry : Entry} (h : entry.depth = opened.length) :
    assemble opened (entry :: entries) =
      entry.event :: assemble (entry.openedAfter opened) entries := by
  rw [assemble, h, Nat.sub_self]
  rfl

/-- The innermost element ends at once if it is not around the next entry. -/
theorem assemble_leave {top : String} (h : ∀ entry ∈ entries.head?, entry.depth ≤ opened.length) :
    assemble (top :: opened) entries = .leave top :: assemble opened entries := by
  cases entries with
  | nil => rfl
  | cons entry entries =>
    have hdepth : entry.depth ≤ opened.length := h entry rfl
    rw [assemble, assemble, List.length_cons, Nat.succ_sub hdepth]
    rfl

/-- The first entry is not deeper than where the events begin. -/
theorem depth_le_of_mem_head?_outline {depth : Nat} {entry : Entry}
    (h : entry ∈ (outline depth x).head?) : entry.depth ≤ depth := by
  fun_induction outline depth x with
  | case1 depth => simp at h
  | case2 depth name x ih =>
    obtain rfl := Option.some.inj h
    exact Nat.le_refl depth
  | case3 depth kind text x ih =>
    obtain rfl := Option.some.inj h
    exact Nat.le_refl depth
  | case4 depth name x ih => exact Nat.le_trans (ih h) (Nat.sub_le depth 1)

/-- Events that close all elements are assembled from their outline. By the recursion of `unclosed`,
with the elements open before each event: at the end of an element, the next entry lies outside. -/
theorem assemble_outline (h : unclosed opened x = some []) :
    assemble opened (outline opened.length x) = x := by
  fun_induction unclosed opened x with
  | case1 opened =>
    obtain rfl := Option.some.inj h
    rfl
  | case2 opened name x ih => exact (assemble_cons rfl).trans (congrArg _ (ih h))
  | case3 opened kind text x ih => exact (assemble_cons rfl).trans (congrArg _ (ih h))
  | case4 name x => simp at h
  | case5 opened top x ih =>
    have houtline :
        outline (top :: opened).length (.leave top :: x) = outline opened.length x := rfl
    rw [houtline, assemble_leave fun _ ↦ depth_le_of_mem_head?_outline, ih h]
  | case6 top opened name x hname => simp at h

/-- Different balanced events have different outlines, although the ends of elements are not in
them. -/
theorem eq_of_outline {x y : List Event} (hx : balanced x = true) (hy : balanced y = true)
    (h : outline 0 x = outline 0 y) : x = y :=
  calc x = assemble [] (outline 0 x) := (assemble_outline (balanced_iff.1 hx)).symm
    _ = assemble [] (outline 0 y) := by rw [h]
    _ = y := assemble_outline (balanced_iff.1 hy)

/-- The entries stand for events. -/
theorem event_mem_of_mem_outline {depth : Nat} {entry : Entry} (h : entry ∈ outline depth x) :
    entry.event ∈ x := by
  fun_induction outline depth x with
  | case1 depth => simp at h
  | case2 depth name x ih =>
    rcases List.mem_cons.1 h with rfl | h
    · exact List.mem_cons_self
    · exact List.mem_cons_of_mem _ (ih h)
  | case3 depth kind text x ih =>
    rcases List.mem_cons.1 h with rfl | h
    · exact List.mem_cons_self
    · exact List.mem_cons_of_mem _ (ih h)
  | case4 depth name x ih => exact List.mem_cons_of_mem _ (ih h)

end JackSyntax
