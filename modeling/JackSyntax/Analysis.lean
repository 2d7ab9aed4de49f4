import JackSyntax.Diagnostic.Basic
import JackSyntax.Markup

/-!
# Analysis of a source

The tokens, the events and the markup of a source, or the first complaint about it.
-/

namespace JackSyntax

namespace Source

/-- The tokens of the source up to its end or its first lexical error. -/
def reading (source : Source) (limits : Limits) : Tokenizer.Reading :=
  tokenize source.text limits

/-- The tokens of the source, if all of it can be read. -/
def tokens (source : Source) (limits : Limits) : Except Diagnostic (List Token) :=
  let reading := source.reading limits
  match reading.failure with
  | none => .ok reading.tokens
  | some e => .error (e.diagnostic source)

/-- The events of the class that the source is. -/
def events (source : Source) (limits : Limits) : Except Diagnostic (List Event) :=
  match (Session.ofText source.text limits).run [.rule .classDec, .finish] with
  | (.ok (), s) => .ok s.events
  | (.error failure, _) => .error (failure.diagnostic source)

/-- Why a source has no markup. -/
inductive Failure where
  /-- A complaint about the source. -/
  | diagnostic (d : Diagnostic)
  /-- Events that make no tree. -/
  | markup (e : MarkupError)
deriving DecidableEq, Repr

/-- The parse tree of the source as markup. -/
def tree (source : Source) (limits : Limits) : Except Failure String :=
  match source.events limits with
  | .error d => .error (.diagnostic d)
  | .ok events => (render events).mapError .markup

/-- The tokens of the source as a listing. -/
def listing (source : Source) (limits : Limits) : Except Diagnostic String :=
  (source.tokens limits).map renderTokens

end Source

end JackSyntax
