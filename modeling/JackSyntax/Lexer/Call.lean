import JackSyntax.Lexer.TokenStream

/-!
# Calls on tokenizers and streams

A tokenizer and a stream are asked one thing after another, in any order. A call that fails leaves
them where it ended, and the next call goes on from there.
-/

namespace JackSyntax

namespace Tokenizer

/-- A call on a tokenizer. -/
inductive Call where
  /-- Reads the next token. -/
  | next
  /-- Reads the word at the cursor. -/
  | word
  /-- Asks where the text ends. -/
  | endPosition
deriving DecidableEq, Repr

/-- What a tokenizer answers. -/
inductive Reply where
  /-- The token that was read, if there was one. -/
  | token (token : Option Token)
  /-- A place in the text. -/
  | position (position : Position)
deriving DecidableEq, Repr

/-- Makes the call on a tokenizer of the text. -/
def perform (t : Tokenizer) (text : String) : Call → Except LexError Reply × Tokenizer
  | .next =>
    let (answer, t) := t.next
    (answer.map .token, t)
  | .word =>
    let (answer, t) := t.word
    (answer.map fun token ↦ .token (some token), t)
  | .endPosition => (.ok (.position (JackSyntax.endPosition text)), t)

/-- Makes the calls in turn, whether they fail or not. -/
def performAll (t : Tokenizer) (text : String) :
    List Call → List (Except LexError Reply) × Tokenizer
  | [] => ([], t)
  | call :: calls =>
    let (reply, t) := t.perform text call
    let (replies, t) := t.performAll text calls
    (reply :: replies, t)

end Tokenizer

namespace TokenStream

/-- A stream at the start of the text. -/
def ofText (text : String) (limits : Limits) : TokenStream where
  source := .ofText text limits

/-- A call on a stream. -/
inductive Call where
  /-- Looks so many places ahead. -/
  | peek (depth : Nat)
  /-- Takes the front token. -/
  | advance
  /-- Asks whether no token is left. -/
  | atEnd
deriving DecidableEq, Repr

/-- What a stream answers. -/
inductive Reply where
  /-- The token that was looked at or taken, if there was one. -/
  | token (token : Option Token)
  /-- Whether no token is left. -/
  | ended (answer : Bool)
deriving DecidableEq, Repr

/-- Makes the call. -/
def perform (s : TokenStream) : Call → Except LexError Reply × TokenStream
  | .peek depth =>
    let (answer, s) := s.peek depth
    (answer.map .token, s)
  | .advance =>
    let (answer, s) := s.advance
    (answer.map .token, s)
  | .atEnd =>
    let (answer, s) := s.atEnd
    (answer.map .ended, s)

/-- Makes the calls in turn, whether they fail or not. -/
def performAll (s : TokenStream) (calls : List Call) : TokenStream :=
  calls.foldl (fun s call ↦ (s.perform call).2) s

end TokenStream

end JackSyntax
