import JackSyntax.Markup
import JackSyntax.Text.Quoted

/-!
# Dumps

Tokens and events as plain text for people who look for a fault: one token a line with its place,
and events as an outline in which an element shows by its indentation alone.
-/

namespace JackSyntax

/-- The line of a token: its place, its kind and its quoted text. -/
def tokenDumpLine (t : Token) : String :=
  let start := t.span.start
  toString start.line ++ ":" ++ toString start.column ++ "\t" ++ t.lexeme.kind.name ++ "\t" ++
    quoted t.lexeme.text ++ "\n"

/-- The lines of the tokens. -/
def dumpTokens (tokens : List Token) : String :=
  String.join (tokens.map tokenDumpLine)

/-- Writes the outline of events at a depth after what is `written`. Where more elements end than
start, the depth is below zero and the indentation empty. -/
def dumpEventsFrom (depth : Int) (written : String) : List Event → String
  | [] => written
  | .enter name :: events =>
    dumpEventsFrom (depth + 1) (written ++ indentation depth.toNat ++ name ++ "\n") events
  | .terminal kind text :: events =>
    dumpEventsFrom depth
      (written ++ indentation depth.toNat ++ kind ++ " " ++ quoted text ++ "\n") events
  | .leave _ :: events => dumpEventsFrom (depth - 1) written events

/-- The outline of events. -/
def dumpEvents (events : List Event) : String :=
  dumpEventsFrom 0 "" events

end JackSyntax
