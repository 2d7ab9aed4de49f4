import JackSyntax.Parser.Session

/-!
# Calls on a session

A session need not be asked for a whole class. Each rule can be parsed on its own, and so can the
parts that have no rule, in any order and after any failure. A call leaves the session where it
ended, and the next call goes on from there.
-/

namespace JackSyntax

/-- What a session can be asked to parse, other than a whole class. -/
inductive Production where
  /-- A rule. -/
  | rule (r : Rule)
  /-- The type of a variable. -/
  | type
  /-- The type of a result. -/
  | resultType
  /-- One of the statements. -/
  | statement
  /-- An expression in parentheses. -/
  | condition
  /-- Statements in braces. -/
  | block
  /-- A term that starts with a name. -/
  | nameTerm
  /-- Any one token. -/
  | take
deriving DecidableEq, Repr

/-- The agenda of the production. -/
def Production.items : Production → List Item
  | rule r => [.rule r]
  | type => [.type]
  | resultType => [.terminal .resultType]
  | statement => [.choice .statement]
  | condition => Item.parenthesized
  | block => Item.block
  | nameTerm => [.choice .nameTerm]
  | take => [.shift]

/-- A call on a session. -/
inductive Call where
  /-- Parses a whole text as a class. -/
  | compile
  /-- Parses a production. -/
  | production (p : Production)
  /-- Parses one more of a list, if the token ahead starts one. -/
  | attempt (r : Repeatable)
deriving DecidableEq, Repr

namespace Session

/-- Makes the call. Only an attempt has an answer, which is whether there was one more. -/
def perform (s : Session) : Call → Except ClassFailure (Option Bool) × Session
  | .compile =>
    let (outcome, s) := s.runClass
    (outcome.map fun _ ↦ none, s)
  | .production p =>
    let (outcome, s) := s.run p.items
    ((outcome.mapError .parse).map fun _ ↦ none, s)
  | .attempt r =>
    let (outcome, s) := s.attempt r
    ((outcome.mapError .parse).map some, s)

/-- The session after the calls, whether they fail or not. -/
def performAll (s : Session) (calls : List Call) : Session :=
  calls.foldl (fun s call ↦ (s.perform call).2) s

end Session

end JackSyntax
