import JackSyntax.Markup
import JackSyntax.Proofs.Parser.Step

/-!
# Markup line by line

Each event is written on a line of its own, or a text with a line break on several. A line is two
spaces for each element around it, a bracket, and what depends on the event alone (`Event.body`).
Trees and listings are such lines one after the other (`markupLines`).

## Main statements

* `Event.toList_line`: the parts of a line.
* `toList_of_renderFrom`, `toList_renderTokens`: trees and listings consist of lines.
-/

namespace JackSyntax

/-! ### The names of elements -/

/-- The name of an element, of letters only. -/
structure IsPlain (name : String) : Prop where
  ne_nil : name.toList ≠ []
  letters : ∀ c ∈ name.toList, c.isAlpha = true

/-- A character that is no letter is not part of a plain name. -/
theorem IsPlain.not_mem {name : String} (h : IsPlain name) {c : Char} (hc : c.isAlpha = false) :
    c ∉ name.toList := by
  intro hmem
  simp [h.letters c hmem] at hc

/-- Whether a name is plain can be decided. -/
theorem isPlain_of_all {name : String}
    (h : (!name.toList.isEmpty && name.toList.all Char.isAlpha) = true) : IsPlain name := by
  simp only [Bool.and_eq_true, Bool.not_eq_true', List.isEmpty_eq_false_iff, List.all_eq_true] at h
  exact ⟨h.1, h.2⟩

/-- The names of rules are plain. -/
theorem Rule.isPlain_name (r : Rule) : IsPlain r.name := by
  cases r <;> exact isPlain_of_all (by decide)

/-- The names of the kinds of terminals are plain. -/
theorem Kind.isPlain_name (k : Kind) : IsPlain k.name := by
  cases k <;> exact isPlain_of_all (by decide)

/-! ### Lines -/

/-- The name that the event has in a tag. -/
def Event.tag : Event → String
  | enter name => name
  | terminal kind _ => kind
  | leave name => name

/-- The line of the event inside `depth` elements. -/
def Event.line (depth : Nat) : Event → String
  | enter name => startLine depth name
  | terminal kind text => terminalLine depth kind text
  | leave name => endLine (depth - 1) name

/-- How many elements are around what comes after the event. -/
def Event.depthAfter (depth : Nat) : Event → Nat
  | enter _ => depth + 1
  | terminal _ _ => depth
  | leave _ => depth - 1

/-- The line of the event after its indentation and the bracket. -/
def Event.body : Event → List Char
  | enter name => name.toList ++ ['>', '\n']
  | terminal kind text =>
    kind.toList ++ '>' :: ' ' ::
      (text.toList.flatMap markupEscape ++ ' ' :: '<' :: '/' :: (kind.toList ++ ['>', '\n']))
  | leave name => '/' :: (name.toList ++ ['>', '\n'])

/-- How many elements are around the line of the event. -/
def Event.lineDepth (depth : Nat) : Event → Nat
  | leave _ => depth - 1
  | _ => depth

theorem toList_indentation (depth : Nat) :
    (indentation depth).toList = List.replicate (2 * depth) ' ' :=
  String.toList_ofList

/-- A line is its indentation, a bracket, and the rest, which does not depend on the depth. -/
theorem Event.toList_line (e : Event) (depth : Nat) :
    (e.line depth).toList = List.replicate (2 * e.lineDepth depth) ' ' ++ '<' :: e.body := by
  cases e with
  | enter name => simp [line, startLine, toList_indentation, body, lineDepth]
  | terminal kind text =>
    simp [line, terminalLine, toList_indentation, markupContent, body, lineDepth]
  | leave name => simp [line, endLine, toList_indentation, body, lineDepth]

section Append

variable {name kind text : String} {u : List Char}

/-- What a reader sees after the bracket, with more markup after the line. -/
theorem Event.body_enter_append : (enter name).body ++ u = name.toList ++ '>' :: '\n' :: u := by
  simp [body]

theorem Event.body_leave_append :
    (leave name).body ++ u = '/' :: (name.toList ++ '>' :: '\n' :: u) := by
  simp [body]

theorem Event.body_terminal_append :
    (terminal kind text).body ++ u = kind.toList ++ '>' :: ' ' ::
      (text.toList.flatMap markupEscape ++ ' ' :: '<' :: '/' ::
        (kind.toList ++ '>' :: '\n' :: u)) := by
  simp [body]

end Append

/-! ### Markup -/

/-- The lines of the events inside `depth` elements. -/
def markupLines (depth : Nat) : List Event → List Char
  | [] => []
  | e :: events => (e.line depth).toList ++ markupLines (e.depthAfter depth) events

/-- Markup consists of the lines of its events. -/
theorem toList_of_renderFrom {depth : Nat} {written tree : String} {events : List Event}
    (h : renderFrom depth written events = .ok tree) :
    tree.toList = written.toList ++ markupLines depth events := by
  induction events generalizing depth written with
  | nil =>
    rw [renderFrom] at h
    split at h
    · obtain rfl := Except.ok.inj h
      exact (List.append_nil _).symm
    · simp at h
  | cons e events ih =>
    cases e with
    | enter name =>
      rw [renderFrom] at h
      rw [ih h, String.toList_append, List.append_assoc]
      rfl
    | terminal kind text =>
      rw [renderFrom] at h
      rw [ih h, String.toList_append, List.append_assoc]
      rfl
    | leave name =>
      cases depth with
      | zero => simp [renderFrom] at h
      | succ depth =>
        rw [renderFrom] at h
        rw [ih h, String.toList_append, List.append_assoc]
        rfl

/-- Terminals leave the depth as it is, so each is written at the same one. -/
theorem markupLines_append_terminals (tokens : List Token) (depth : Nat) (events : List Event) :
    markupLines depth (tokens.map Token.event ++ events) =
      (tokens.flatMap fun t ↦
          (terminalLine depth t.lexeme.kind.name t.lexeme.text).toList) ++
        markupLines depth events := by
  induction tokens with
  | nil => rfl
  | cons token tokens ih =>
    rw [List.flatMap_cons, List.append_assoc, ← ih]
    rfl

/-- A listing consists of the lines of its terminals between those of an element around them. -/
theorem toList_renderTokens (tokens : List Token) :
    (renderTokens tokens).toList =
      "<tokens>\n".toList ++ markupLines 0 (tokens.map Token.event ++ [.leave "tokens"]) := by
  have hend : markupLines 0 [.leave "tokens"] = "</tokens>\n".toList := by decide
  rw [markupLines_append_terminals, hend, renderTokens, String.toList_append, String.toList_append,
    List.append_assoc, String.toList_join, List.flatMap_map]

end JackSyntax
