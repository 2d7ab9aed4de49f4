import JackSyntax.Lexer.Cursor
import JackSyntax.Lexer.Scan
import JackSyntax.Lexer.Trivia

/-!
# The tokenizer

A `Tokenizer` is a text being read: what is left of it, how far it has been read and how many tokens
have been counted. `Tokenizer.next` passes over trivia and reads one token; `Tokenizer.word` reads a
word just where the cursor stands. A failed reading leaves the tokenizer at the faulty lexeme, so
the failure repeats. `Tokenizer.remaining` reads all that is left.
-/

namespace JackSyntax

/-- The bounds within which a text is read. -/
structure Limits where
  /-- After this many tokens the text counts as ended. -/
  maxTokens : Int := 1000000
  /-- The largest integer constant. -/
  maxInteger : Int := 32767
deriving DecidableEq, Repr

/-- A text being read. -/
structure Tokenizer where
  /-- The bounds within which it is read. -/
  limits : Limits
  /-- The characters not yet read. -/
  rest : List Char
  /-- How far it has been read. -/
  cursor : Cursor := .start
  /-- The tokens counted so far. -/
  emitted : Nat := 0

namespace Tokenizer

/-- A tokenizer at the start of the text. -/
def ofText (text : String) (limits : Limits) : Tokenizer where
  limits
  rest := text.toList

/-- The tokenizer past the first of two pieces that make up what is left. -/
def advance (t : Tokenizer) (pieces : List Char × List Char) : Tokenizer :=
  { t with rest := pieces.2, cursor := t.cursor.advance pieces.1 }

/-- The tokenizer past the trivia at its cursor. -/
def skipTrivia (t : Tokenizer) : Tokenizer :=
  t.advance (splitTrivia t.rest)

/-- The tokenizer past what was scanned. -/
def accept (t : Tokenizer) (scan : Scan) : Tokenizer :=
  t.advance (scan.taken, scan.rest)

/-- What was scanned, as a token at the cursor. -/
def tokenOf (t : Tokenizer) (scan : Scan) : Token where
  lexeme := scan.lexeme
  span := ⟨t.cursor.position, (t.accept scan).cursor.position⟩

/-- Whether as many tokens have been counted as the limit allows. -/
def isSpent (t : Tokenizer) : Bool :=
  t.limits.maxTokens ≤ t.emitted

/-- Reads the next token. There is none at the end of the text, nor once the limit on tokens is
reached, in which case trivia stays unread as well. -/
def next (t : Tokenizer) : Except LexError (Option Token) × Tokenizer :=
  if t.isSpent then (.ok none, t)
  else
    -- From here on an error leaves the cursor past the trivia, at the faulty lexeme.
    let t := t.skipTrivia
    match t.rest with
    | [] => (.ok none, t)
    | c :: text =>
      match scanLexeme t.limits.maxInteger c text with
      | .error cause => (.error ⟨cause, t.cursor.position⟩, t)
      | .ok scan => (.ok (some (t.tokenOf scan)), { t.accept scan with emitted := t.emitted + 1 })

/-- Reads the word at the cursor, without passing over trivia and without counting it. -/
def word (t : Tokenizer) : Except LexError Token × Tokenizer :=
  match scanWord t.rest with
  | .error cause => (.error ⟨cause, t.cursor.position⟩, t)
  | .ok scan => (.ok (t.tokenOf scan), t.accept scan)

/-- What is answered when the next token is asked for, and the tokenizer then. -/
inductive Answers (t : Tokenizer) : Except LexError (Option Token) → Tokenizer → Prop
  /-- The limit on tokens is reached. -/
  | spent (hspent : t.isSpent = true) : Answers t (.ok none) t
  /-- Only trivia is left. -/
  | ended (hspent : ¬ t.isSpent = true) (hrest : t.skipTrivia.rest = []) :
    Answers t (.ok none) t.skipTrivia
  /-- Nothing can be read after the trivia. -/
  | failed {c : Char} {text : List Char} {cause : LexError.Cause} (hspent : ¬ t.isSpent = true)
    (hrest : t.skipTrivia.rest = c :: text)
    (hscan : scanLexeme t.limits.maxInteger c text = .error cause) :
    Answers t (.error ⟨cause, t.skipTrivia.cursor.position⟩) t.skipTrivia
  /-- A lexeme comes after the trivia. -/
  | token {c : Char} {text : List Char} {scan : Scan} (hspent : ¬ t.isSpent = true)
    (hrest : t.skipTrivia.rest = c :: text)
    (hscan : scanLexeme t.limits.maxInteger c text = .ok scan) :
    Answers t (.ok (some (t.skipTrivia.tokenOf scan)))
      { t.skipTrivia.accept scan with emitted := t.emitted + 1 }

/-- Every answer is one of these. -/
theorem answers_of_next {t t' : Tokenizer} {answer : Except LexError (Option Token)}
    (h : t.next = (answer, t')) : t.Answers answer t' := by
  simp only [next] at h
  split at h
  · rename_i hspent
    obtain ⟨rfl, rfl⟩ := Prod.mk.inj h
    exact .spent hspent
  · rename_i hspent
    split at h
    · rename_i hrest
      obtain ⟨rfl, rfl⟩ := Prod.mk.inj h
      exact .ended hspent hrest
    · rename_i hrest
      split at h
      · rename_i hscan
        obtain ⟨rfl, rfl⟩ := Prod.mk.inj h
        exact .failed hspent hrest hscan
      · rename_i hscan
        obtain ⟨rfl, rfl⟩ := Prod.mk.inj h
        exact .token hspent hrest hscan

/-! ### Reading to the end -/

/-- Passing over trivia never adds characters. -/
theorem length_rest_skipTrivia (t : Tokenizer) : t.skipTrivia.rest.length ≤ t.rest.length := by
  have h := congrArg List.length (splitTrivia_append t.rest)
  rw [List.length_append] at h
  show (splitTrivia t.rest).2.length ≤ t.rest.length
  omega

/-- A token takes at least one character. -/
theorem length_rest_lt_of_next {t t' : Tokenizer} {token : Token}
    (h : t.next = (.ok (some token), t')) : t'.rest.length < t.rest.length := by
  have hskip := t.length_rest_skipTrivia
  cases answers_of_next h with
  | token _ hrest hscan =>
    have hlt := (scanLexeme_divides hscan).length_rest_lt
    rw [hrest] at hskip
    exact Nat.lt_of_lt_of_le hlt hskip

/-- Reading on never adds characters. -/
theorem length_rest_next_le (t : Tokenizer) : t.next.2.rest.length ≤ t.rest.length := by
  rcases h : t.next with ⟨answer, t'⟩
  cases answers_of_next h with
  | spent _ => exact Nat.le_refl _
  | ended _ _ => exact t.length_rest_skipTrivia
  | failed _ _ _ => exact t.length_rest_skipTrivia
  | token _ _ _ => exact Nat.le_of_lt (length_rest_lt_of_next h)

/-- The tokens of a text and how reading it ended. -/
structure Reading where
  /-- The tokens, in order. -/
  tokens : List Token
  /-- The error that ended the reading, if one did. -/
  failure : Option LexError
  /-- The tokenizer where the reading ended. -/
  last : Tokenizer

/-- The reading with one more token before its others. -/
def Reading.cons (token : Token) (reading : Reading) : Reading :=
  { reading with tokens := token :: reading.tokens }

/-- Reads tokens until there is no more or an error is met. -/
def remaining (t : Tokenizer) : Reading :=
  match _ : t.next with
  | (.ok (some token), t') => t'.remaining.cons token
  | (.ok none, t') => ⟨[], none, t'⟩
  | (.error e, t') => ⟨[], some e, t'⟩
termination_by t.rest.length
decreasing_by
  rename_i h
  exact length_rest_lt_of_next h

end Tokenizer

/-- The tokens of a text, and how reading it ended. -/
def tokenize (text : String) (limits : Limits) : Tokenizer.Reading :=
  (Tokenizer.ofText text limits).remaining

end JackSyntax
