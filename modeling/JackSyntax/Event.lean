import JackSyntax.Token.Basic

/-!
# Tree events

A parse tree as the sequence of events that a walk over it meets: an element opens, a terminal
stands there, an element closes. `balanced` accepts the sequences in which every element is closed
under its own name, in nested order.
-/

namespace JackSyntax

/-- What a walk over a tree meets. -/
inductive Event where
  /-- The start of an element. -/
  | enter (name : String)
  /-- A terminal: the name of its kind and its text. -/
  | terminal (kind text : String)
  /-- The end of an element. -/
  | leave (name : String)
deriving DecidableEq, Repr

/-- The terminal that a lexeme is in a tree. -/
def Event.ofLexeme (l : Lexeme) : Event :=
  .terminal l.kind.name l.text

/-- Whether the events close the given elements, innermost first, and all that they open. -/
def balancedWithin : (unclosed : List String) → List Event → Bool
  | unclosed, [] => unclosed.isEmpty
  | unclosed, .enter name :: events => balancedWithin (name :: unclosed) events
  | unclosed, .terminal _ _ :: events => balancedWithin unclosed events
  | [], .leave _ :: _ => false
  | top :: unclosed, .leave name :: events => top == name && balancedWithin unclosed events

/-- Whether every element is closed under its own name, in nested order. -/
def balanced (events : List Event) : Bool :=
  balancedWithin [] events

end JackSyntax
