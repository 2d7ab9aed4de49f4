import JackSyntax.Proofs.Layout.Parses
import JackSyntax.Proofs.Lexer.Continuation
import JackSyntax.Proofs.Lexer.Places

/-!
# Carriage returns before line feeds

A text in which every line feed gets a carriage return before it (`crlf`) has the same tokens on the
same lines and in the same columns, only that strings have the carriage returns as well. A line ends
at its line feed, a carriage return is blank like a line feed and ends neither a line comment nor a
block comment, and no number or word goes on over either of the two.

Each part of the scanner is shown to commute with `crlf`. Offsets drift apart at each line feed, so
they have no part in the relation between the two tokenizers (`Tokenizer.Widened`).

## Main statements

* `splitTrivia_crlf`, `scanLexeme_crlf`: what is passed over and what is read.
* `Tokenizer.widened_simulates`: the tokenizers answer alike, one token after the other.
* `Source.crlf_layout`: the tokens, the events and the complaint of a text with carriage returns.
-/

namespace JackSyntax

/-- The text with a carriage return before each line feed. -/
def crlf (text : List Char) : List Char :=
  text.flatMap fun c ↦ if c = '\n' then ['\r', '\n'] else [c]

/-- The same line and column, whatever the offset. -/
structure Position.SameLineColumn (p p' : Position) : Prop where
  line_eq : p'.line = p.line
  column_eq : p'.column = p.column

/-- Layouts of which the second one has a carriage return before each line feed. -/
def Relayout.lineEnds : Relayout where
  string value := String.ofList (crlf value.toList)
  place := Position.SameLineColumn

/-! ### Characters -/

section Characters

variable {c : Char} {text : List Char}

@[simp]
theorem crlf_nil : crlf [] = [] := rfl

@[simp]
theorem crlf_newline (text : List Char) : crlf ('\n' :: text) = '\r' :: '\n' :: crlf text := rfl

theorem crlf_cons (hc : c ≠ '\n') (text : List Char) : crlf (c :: text) = c :: crlf text := by
  simp [crlf, hc]

@[simp]
theorem crlf_append (text more : List Char) : crlf (text ++ more) = crlf text ++ crlf more :=
  List.flatMap_append

/-- A text of one line stays as it is. -/
theorem crlf_of_not_mem (h : '\n' ∉ text) : crlf text = text := by
  induction text with
  | nil => rfl
  | cons c text ih =>
    rw [crlf_cons (List.ne_of_not_mem_cons h).symm, ih (List.not_mem_of_not_mem_cons h)]

variable {p : Char → Bool}

/-- A run of characters among which are both line ends or none is a run with them. -/
theorem takeWhile_crlf (hp : p '\r' = p '\n') (text : List Char) :
    (crlf text).takeWhile p = crlf (text.takeWhile p) := by
  induction text with
  | nil => rfl
  | cons c text ih =>
    by_cases hc : c = '\n'
    · subst hc
      cases hnewline : p '\n' <;> simp [hp, hnewline, ih]
    · cases hpc : p c <;> simp [crlf_cons hc, hpc, ih]

/-- A property that does not tell the line ends apart is lost at the same place. -/
theorem dropWhile_crlf (hp : p '\r' = p '\n') (text : List Char) :
    (crlf text).dropWhile p = crlf (text.dropWhile p) := by
  induction text with
  | nil => rfl
  | cons c text ih =>
    by_cases hc : c = '\n'
    · subst hc
      cases hnewline : p '\n' <;> simp [hp, hnewline, ih]
    · cases hpc : p c <;> simp [crlf_cons hc, hpc, ih]

/-- A run that no line feed belongs to is the same. -/
theorem crlf_takeWhile (hp : p '\n' = false) (text : List Char) :
    crlf (text.takeWhile p) = text.takeWhile p :=
  crlf_of_not_mem fun hmem ↦ by simpa [hp] using (maximalRun_takeWhile p text).all _ hmem

/-- A text starts as it did, unless with a line feed. -/
theorem head?_crlf (text : List Char) :
    (crlf text).head? = text.head?.map fun c ↦ if c = '\n' then '\r' else c := by
  cases text with
  | nil => rfl
  | cons c text =>
    by_cases hc : c = '\n'
    · subst hc
      rfl
    · simp [crlf_cons hc, hc]

/-- It starts with a character that is no line end just if it did. -/
theorem head?_crlf_eq_some_iff (hnewline : c ≠ '\n') (hreturn : c ≠ '\r') (text : List Char) :
    (crlf text).head? = some c ↔ text.head? = some c := by
  rw [head?_crlf]
  cases text with
  | nil => rfl
  | cons c' text =>
    by_cases hc : c' = '\n'
    · subst hc
      simp [hnewline.symm, hreturn.symm]
    · simp [hc]

end Characters

/-! ### Trivia -/

/-- No `*/` arises. -/
theorem not_closes_crlf {body : List Char} (h : ¬ ['*', '/'] <:+: body) :
    ¬ ['*', '/'] <:+: crlf body := by
  induction body with
  | nil => exact h
  | cons c body ih =>
    have hbody := ih fun hin ↦ h (List.infix_cons hin)
    by_cases hc : c = '\n'
    · subst hc
      exact not_closes_cons (not_closes_cons hbody (by simp)) (by simp)
    · rw [crlf_cons hc]
      refine not_closes_cons hbody fun hstar hslash ↦ ?_
      rw [head?_crlf_eq_some_iff (by decide) (by decide)] at hslash
      obtain ⟨more, rfl⟩ := List.head?_eq_some_iff.1 hslash
      exact h ⟨[], more, by rw [hstar]; rfl⟩

/-- A unit of trivia is trivia. -/
theorem TriviaUnit.crlf {unit rest : List Char} (h : TriviaUnit unit rest) :
    Trivia (crlf unit) (crlf rest) := by
  have hunit : ∀ {unit : List Char}, TriviaUnit unit (JackSyntax.crlf rest) →
      Trivia unit (JackSyntax.crlf rest) := by
    intro unit hunit
    have hone : Trivia (unit ++ []) (JackSyntax.crlf rest) := .cons hunit .nil
    rwa [List.append_nil] at hone
  cases h with
  | @blank c _ h =>
    by_cases hc : c = '\n'
    · subst hc
      exact trivia_of_blank (List.all_eq_true.1 rfl)
    · rw [crlf_cons hc]
      exact hunit (.blank h)
  | @line body _ h =>
    have hbody : '\n' ∉ body ++ ['\r'] := by simp [h]
    have hline := hunit (.line hbody)
    rw [List.append_assoc] at hline
    rw [crlf_cons (by decide), crlf_cons (by decide), crlf_append, crlf_of_not_mem h]
    exact hline
  | lastLine h =>
    rw [crlf_cons (by decide), crlf_cons (by decide), crlf_of_not_mem h]
    exact hunit (.lastLine h)
  | block h =>
    rw [crlf_cons (by decide), crlf_cons (by decide), crlf_append]
    exact hunit (.block (not_closes_crlf h))
  | lastBlock h =>
    rw [crlf_cons (by decide), crlf_cons (by decide)]
    exact hunit (.lastBlock (not_closes_crlf h))

/-- Trivia is trivia with other line ends too. -/
theorem Trivia.crlf {gap rest : List Char} (h : Trivia gap rest) :
    Trivia (crlf gap) (crlf rest) := by
  induction h with
  | nil => exact .nil
  | cons hunit _ ih =>
    rw [crlf_append]
    refine .append ?_ ih
    rw [← crlf_append]
    exact hunit.crlf

/-- Trivia starts where it did. -/
theorem startsTrivia_crlf (text : List Char) : startsTrivia (crlf text) = startsTrivia text := by
  cases text with
  | nil => rfl
  | cons c text =>
    by_cases hc : c = '\n'
    · subst hc
      rfl
    · rw [crlf_cons hc, Bool.eq_iff_iff, startsTrivia_cons, startsTrivia_cons,
        head?_crlf_eq_some_iff (by decide) (by decide),
        head?_crlf_eq_some_iff (by decide) (by decide)]

/-- The same trivia is passed over. -/
theorem splitTrivia_crlf (text : List Char) :
    splitTrivia (crlf text) = (crlf (splitTrivia text).1, crlf (splitTrivia text).2) := by
  have hstarts := (startsTrivia_crlf (splitTrivia text).2).trans (startsTrivia_splitTrivia text)
  rw [← splitTrivia_of_trivia (trivia_splitTrivia text).crlf hstarts, ← crlf_append,
    splitTrivia_append]

/-! ### Lexemes -/

/-- The scan of a text with carriage returns. -/
def Scan.crlf (scan : Scan) : Scan where
  lexeme := Relayout.lineEnds.lexeme scan.lexeme
  taken := JackSyntax.crlf scan.taken
  rest := JackSyntax.crlf scan.rest

section Lexemes

variable {c : Char} (maximum : Int)

/-- Numbers are scanned in the same way. -/
theorem scanInteger_crlf (text : List Char) :
    scanInteger maximum (crlf text) = (scanInteger maximum text).map Scan.crlf := by
  have hdigit : Char.isDigit '\n' = false := rfl
  unfold scanInteger
  rw [takeWhile_crlf rfl, dropWhile_crlf rfl, crlf_takeWhile hdigit]
  simp only
  split
  · rfl
  · simp only [Except.map, Scan.crlf, crlf_takeWhile hdigit]
    rfl

/-- Strings are scanned in the same way, but for the line ends inside them. -/
theorem scanString_crlf (text : List Char) :
    scanString (crlf text) = (scanString text).map Scan.crlf := by
  have hstops := (maximalRun_takeWhile (· != '"') text).stops
  unfold scanString
  rw [takeWhile_crlf rfl, dropWhile_crlf rfl]
  cases hrest : text.dropWhile (· != '"') with
  | nil => rfl
  | cons quote rest =>
    rw [hrest] at hstops
    obtain rfl : quote = '"' := by simpa using hstops quote rfl
    rw [crlf_cons (by decide)]
    simp only [Except.map, Scan.crlf, Relayout.lexeme, Relayout.lineEnds, String.toList_ofList]
    rw [List.cons_append, List.cons_append, crlf_cons (by decide), crlf_append]
    rfl

/-- Words are scanned in the same way. -/
theorem scanWord_crlf (hc : c ≠ '\n') (text : List Char) :
    scanWord (crlf (c :: text)) = (scanWord (c :: text)).map Scan.crlf := by
  have hnewline : isNamePart '\n' = false := by decide +kernel
  have hreturn : isNamePart '\r' = isNamePart '\n' := by decide +kernel
  have htake := (takeWhile_crlf hreturn (c :: text)).trans (crlf_takeWhile hnewline _)
  have hdrop := dropWhile_crlf hreturn (c :: text)
  rw [crlf_cons hc] at htake hdrop ⊢
  simp only [scanWord, htake, hdrop]
  split
  · rfl
  · split
    · simp only [Except.map, Scan.crlf, crlf_takeWhile hnewline]
      rcases ofWord_cases (String.ofList ((c :: text).takeWhile isNamePart)) with
        ⟨k, -, hlexeme⟩ | ⟨-, hlexeme⟩ <;> rw [hlexeme] <;> rfl
    · rfl

/-- The same lexeme is read, or the same is wrong. -/
theorem scanLexeme_crlf (hc : c ≠ '\n') (text : List Char) :
    scanLexeme maximum c (crlf text) = (scanLexeme maximum c text).map Scan.crlf := by
  unfold scanLexeme
  split
  · simp only [Except.map, Scan.crlf, crlf_cons hc]
    rfl
  · rw [← crlf_cons hc, scanInteger_crlf, scanString_crlf, scanWord_crlf hc]
    split
    · rfl
    · split
      · rfl
      · split <;> rfl

end Lexemes

/-! ### Tokenizers -/

/-- Cursors on the same line and column are so past any text. -/
theorem Cursor.sameLineColumn_advance {cursor cursor' : Cursor}
    (h : cursor.position.SameLineColumn cursor'.position) (text : List Char) :
    (cursor.advance text).position.SameLineColumn (cursor'.advance (crlf text)).position := by
  induction text generalizing cursor cursor' with
  | nil => exact h
  | cons c text ih =>
    obtain ⟨hline, hcolumn⟩ := h
    have hline : cursor'.line = cursor.line := Int.ofNat.inj hline
    have hcolumn : cursor'.column = cursor.column := Int.ofNat.inj hcolumn
    by_cases hc : c = '\n'
    · -- The carriage return adds a column, from which the line feed goes back to the first one.
      subst hc
      have hstep : (cursor.step '\n').position.SameLineColumn
          ((cursor'.step '\r').step '\n').position :=
        ⟨congrArg (fun line : Nat ↦ ((line + 1 : Nat) : Int)) hline, rfl⟩
      exact ih hstep
    · have hstep : (cursor.step c).position.SameLineColumn (cursor'.step c).position := by
        constructor
        · simp [position, step_of_ne hc, hline]
        · simp [position, step_of_ne hc, hcolumn]
      rw [crlf_cons hc]
      exact ih hstep

/-- The ends of the two texts are on the same line and column. -/
theorem sameLineColumn_endPosition (text : String) :
    (endPosition text).SameLineColumn (endPosition (String.ofList (crlf text.toList))) := by
  rw [← position_advance_eq_endPosition, ← position_advance_eq_endPosition, String.toList_ofList]
  exact Cursor.sameLineColumn_advance ⟨rfl, rfl⟩ text.toList

namespace Tokenizer

/-- The second tokenizer stands at the same place of the same text, but with a carriage return
before each line feed. -/
structure Widened (t t' : Tokenizer) : Prop where
  limits_eq : t'.limits = t.limits
  emitted_eq : t'.emitted = t.emitted
  rest_eq : t'.rest = crlf t.rest
  place : t.cursor.position.SameLineColumn t'.cursor.position

variable {t t' : Tokenizer}

/-- Both are still at the same place after corresponding pieces. -/
theorem Widened.advance (h : Widened t t') (pieces : List Char × List Char) :
    Widened (t.advance pieces) (t'.advance (crlf pieces.1, crlf pieces.2)) where
  limits_eq := h.limits_eq
  emitted_eq := h.emitted_eq
  rest_eq := rfl
  place := Cursor.sameLineColumn_advance h.place _

/-- Related tokenizers stay related when both pass over trivia. -/
theorem Widened.skipTrivia (h : Widened t t') : Widened t.skipTrivia t'.skipTrivia := by
  have hskip := h.advance (splitTrivia t.rest)
  rwa [← splitTrivia_crlf, ← h.rest_eq] at hskip

/-- Past trivia both come to the same character, from which they read the same. -/
theorem Widened.scanLexeme {c : Char} {text : List Char} (h : Widened t t')
    (htext : t.skipTrivia.rest = c :: text) : t'.skipTrivia.rest = c :: crlf text ∧
      JackSyntax.scanLexeme t'.limits.maxInteger c (crlf text) =
        (JackSyntax.scanLexeme t.limits.maxInteger c text).map Scan.crlf := by
  -- A line feed is trivia, so it is not the character.
  have hc : c ≠ '\n' := by
    rintro rfl
    have hstarts : startsTrivia t.skipTrivia.rest = false := startsTrivia_splitTrivia t.rest
    rw [htext, ← Bool.not_eq_true, startsTrivia_cons] at hstarts
    exact hstarts (.inl rfl)
  refine ⟨?_, ?_⟩
  · rw [h.skipTrivia.rest_eq, htext, crlf_cons hc]
  · rw [h.limits_eq, scanLexeme_crlf _ hc]

/-- Reading a text with other line ends is a simulation. -/
theorem widened_simulates : Relayout.lineEnds.Simulates Widened := by
  intro t t' h
  have hspent' : t'.isSpent = t.isSpent := by
    rw [isSpent, isSpent, h.limits_eq, h.emitted_eq]
  have hskip := h.skipTrivia
  rcases hnext : t.next with ⟨answer, t₁⟩
  cases answers_of_next hnext with
  | spent hspent =>
    rw [next_of_answers (.spent (hspent'.trans hspent))]
    exact .none
  | ended hspent hnil =>
    have hnil' : t'.skipTrivia.rest = [] := by rw [hskip.rest_eq, hnil]; rfl
    rw [next_of_answers (.ended (hspent' ▸ hspent) hnil')]
    exact .none
  | failed hspent htext hscan =>
    obtain ⟨htext', hscan'⟩ := h.scanLexeme htext
    rw [hscan] at hscan'
    rw [next_of_answers (.failed (hspent' ▸ hspent) htext' hscan')]
    exact .error ⟨rfl, hskip.place⟩
  | @token c text scan hspent htext hscan =>
    obtain ⟨htext', hscan'⟩ := h.scanLexeme htext
    rw [hscan] at hscan'
    rw [next_of_answers (.token (hspent' ▸ hspent) htext' hscan')]
    have hpast := hskip.advance (scan.taken, scan.rest)
    refine .token ⟨rfl, hskip.place, hpast.place⟩ ?_
    exact ⟨hpast.limits_eq, congrArg (· + 1) h.emitted_eq, hpast.rest_eq, hpast.place⟩

end Tokenizer

/-! ### Tokens, events and complaints -/

theorem Position.SameLineColumn.succ {p p' : Position} (h : p.SameLineColumn p') :
    p.succ.SameLineColumn p'.succ :=
  ⟨h.line_eq, congrArg (· + 1) h.column_eq⟩

/-- What a complaint says of the grammar: the rule in force and what it asked for. -/
def Diagnostic.Origin.asked : Diagnostic.Origin → Option (Option String × Option String)
  | lexical => none
  | syntactic rule expected _ => some (rule, expected)

/-- The complaints are of the same kind, ask for the same and are about the same lines and columns.
-/
structure Diagnostic.SamePlace (d d' : Diagnostic) : Prop where
  asked_eq : d'.origin.asked = d.origin.asked
  start : d.span.start.SameLineColumn d'.span.start
  stop : d.span.stop.SameLineColumn d'.span.stop

/-- Related failures are complained of at the same line and column. -/
theorem Relayout.Failures.samePlace {failure failure' : ParseFailure}
    (h : Relayout.lineEnds.Failures failure failure') (source source' : Source) :
    (failure.diagnostic source).SamePlace (failure'.diagnostic source') := by
  cases h with
  | lexical he => exact ⟨rfl, he.position, Position.SameLineColumn.succ he.position⟩
  | syntactic hfound =>
    cases hfound with
    | token htoken => exact ⟨rfl, htoken.start, htoken.stop⟩
    | endOfInput hplace => exact ⟨rfl, hplace, hplace⟩

/-- The source with a carriage return before each line feed. -/
def Source.crlf (source : Source) : Source :=
  { source with text := String.ofList (JackSyntax.crlf source.text.toList) }

/-- A carriage return before each line feed leaves the tokens of a source on their lines and
columns, only that strings have it as well, and so it leaves the error that ends the reading. The
events are the same then but for the strings, or there is a complaint of the same kind, of the same
rule that asks for the same, about the same lines and columns. -/
theorem Source.crlf_layout (source : Source) (limits : Limits) :
    Relayout.lineEnds.Readings (source.reading limits) (source.crlf.reading limits) ∧
    ResultRel Diagnostic.SamePlace
      (fun events events' ↦ events' = events.map Relayout.lineEnds.event)
      (source.events limits) (source.crlf.events limits) := by
  have hstart : Tokenizer.Widened (.ofText source.text limits) (.ofText source.crlf.text limits) :=
    ⟨rfl, rfl, String.toList_ofList, rfl, rfl⟩
  have hreadings : Relayout.lineEnds.Readings (source.reading limits)
      (source.crlf.reading limits) := Tokenizer.widened_simulates.remaining hstart
  refine ⟨hreadings, (hreadings.events (sameLineColumn_endPosition _)).imp ?_ fun _ _ ↦ id⟩
  rintro d d' ⟨failure, failure', hfailure, rfl, rfl⟩
  exact hfailure.samePlace source source.crlf

end JackSyntax
