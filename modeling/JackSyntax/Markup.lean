import JackSyntax.Event
import JackSyntax.Token.Basic

/-!
# Markup

A parse tree as indented XML, one element start, element end or terminal a line, and a token
sequence as a flat listing of terminals. The markup is built from the events one by one and counts
depth only: it refuses an end that no start precedes and starts that no end follows.
-/

namespace JackSyntax

/-- The characters that stand for `c` in element content. -/
def markupEscape (c : Char) : List Char :=
  if c = '&' then "&amp;".toList
  else if c = '<' then "&lt;".toList
  else if c = '>' then "&gt;".toList
  else if c = '"' then "&quot;".toList
  else [c]

/-- The text as element content. -/
def markupContent (text : String) : String :=
  String.ofList (text.toList.flatMap markupEscape)

/-- Two spaces for each enclosing element. -/
def indentation (depth : Nat) : String :=
  String.ofList (List.replicate (2 * depth) ' ')

/-- The line of a start tag. -/
def startLine (depth : Nat) (name : String) : String :=
  indentation depth ++ "<" ++ name ++ ">\n"

/-- The line of an end tag. -/
def endLine (depth : Nat) (name : String) : String :=
  indentation depth ++ "</" ++ name ++ ">\n"

/-- The line of a terminal. -/
def terminalLine (depth : Nat) (kind text : String) : String :=
  indentation depth ++ "<" ++ kind ++ "> " ++ markupContent text ++ " </" ++ kind ++ ">\n"

/-- Why events have no markup. -/
inductive MarkupError where
  /-- An element ends that has not started. -/
  | unopened (name : String)
  /-- So many elements have not ended. -/
  | unclosed (count : Nat)
deriving DecidableEq, Repr

/-- The wording of the error. -/
def MarkupError.message : MarkupError → String
  | unopened name => "unbalanced close tag </" ++ name ++ ">"
  | unclosed count => toString count ++ " unclosed element(s) in event stream"

/-- Writes the markup of events inside `depth` elements after what is `written`. -/
def renderFrom (depth : Nat) (written : String) : List Event → Except MarkupError String
  | [] => if depth = 0 then .ok written else .error (.unclosed depth)
  | .enter name :: events => renderFrom (depth + 1) (written ++ startLine depth name) events
  | .terminal kind text :: events =>
    renderFrom depth (written ++ terminalLine depth kind text) events
  | .leave name :: events =>
    -- The name is not compared with that of the element it ends.
    match depth with
    | 0 => .error (.unopened name)
    | depth + 1 => renderFrom depth (written ++ endLine depth name) events

/-- The markup of events. -/
def render (events : List Event) : Except MarkupError String :=
  renderFrom 0 "" events

/-- The flat listing of tokens. -/
def renderTokens (tokens : List Token) : String :=
  "<tokens>\n" ++
    String.join (tokens.map fun t ↦ terminalLine 0 t.lexeme.kind.name t.lexeme.text) ++
    "</tokens>\n"

end JackSyntax
