import JackSyntax.Proofs.Diagnostic.ShownLine

/-!
# What carets stand under

The last two lines of a complaint are a line of the source and carets, behind gutters of one width.
A caret in some column is below the character in that column, so what the carets stand under can be
read off the line. Where lines end in line feeds only, with or without a carriage return in front
(`PlainLines`), the line shown is the one with the place complained of, and the carets begin at that
place (`Diagnostic.shownText_eq`). They go on to the end of a token, or to the end of the line if
the token has more lines.

## Main statements

* `Tokenizer.IsOn.remaining_places`: where tokens and errors stand in the text.
* `Diagnostic.underlined`: the last two lines of a complaint.
* `Source.complaint_underlines`: what the carets of a complaint stand under.
-/

namespace JackSyntax

variable {text line before body read spelling rest : List Char} {c : Char}

/-! ### Texts with plain line ends -/

/-- The line breaks other than line feeds and carriage returns. -/
def otherBreaks : List Char :=
  ['\x0b', '\x0c', '\x1c', '\x1d', '\x1e', '\x85', '\u2028', '\u2029']

/-- Carriage returns come before line feeds only, and there are no other line breaks than these. -/
structure PlainLines (text : List Char) : Prop where
  returns : ∀ i < text.length, text[i]? = some '\r' → text[i + 1]? = some '\n'
  others : ∀ c ∈ otherBreaks, c ∉ text

/-- The end of a text with plain lines has plain lines. -/
theorem PlainLines.of_append (h : PlainLines (before ++ rest)) : PlainLines rest where
  returns i hi hreturn := by
    have hshift : ∀ j, (before ++ rest)[before.length + j]? = rest[j]? := fun j ↦ by
      rw [List.getElem?_append_right (Nat.le_add_right _ _), Nat.add_sub_cancel_left]
    rw [← hshift] at hreturn ⊢
    have hlt : before.length + i < (before ++ rest).length := by
      rw [List.length_append]
      exact Nat.add_lt_add_left hi _
    exact h.returns (before.length + i) hlt hreturn
  others c hc hmem := h.others c hc (List.mem_append_right _ hmem)

/-- A carriage return has a line feed after it. -/
theorem PlainLines.head?_eq (h : PlainLines (before ++ '\r' :: rest)) : rest.head? = some '\n' := by
  have hnext := h.of_append.returns 0 (Nat.zero_lt_succ _) rfl
  rwa [List.getElem?_cons_succ, ← List.head?_eq_getElem?] at hnext

/-- There are no other line breaks. -/
theorem PlainLines.not_mem_lineBreaks (h : PlainLines text) (hc : c ∈ text) (hnewline : c ≠ '\n')
    (hreturn : c ≠ '\r') : c ∉ lineBreaks := by
  have hsub : lineBreaks ⊆ '\n' :: '\r' :: otherBreaks := by decide
  intro hbreak
  rcases List.mem_cons.1 (hsub hbreak) with rfl | hmore
  · exact hnewline rfl
  rcases List.mem_cons.1 hmore with rfl | hother
  · exact hreturn rfl
  · exact h.others c hother hc

/-- Before a line feed there may be one carriage return. -/
theorem PlainLines.isSimpleLine (h : PlainLines (line ++ '\n' :: rest)) (hline : '\n' ∉ line) :
    IsSimpleLine line := by
  have hplain : ∀ c ∈ line, c ≠ '\r' → c ∉ lineBreaks := fun c hc hreturn ↦
    h.not_mem_lineBreaks (List.mem_append_left _ hc) (ne_of_mem_of_not_mem hc hline) hreturn
  rcases List.eq_nil_or_concat line with rfl | ⟨body, c, rfl⟩
  · exact ⟨[], .inl rfl, List.forall_mem_nil _⟩
  · -- A carriage return before the last character is in front of a character of the line.
    have hbody : ∀ c ∈ body, c ≠ '\r' := by
      rintro _ hmem rfl
      obtain ⟨before, after, rfl⟩ := List.append_of_mem hmem
      simp only [List.concat_eq_append, List.append_assoc, List.cons_append] at h hline
      have hhead := h.head?_eq
      cases after with
      | nil => simp_all
      | cons c' after => simp_all
    by_cases hc : c = '\r'
    · subst hc
      exact ⟨body, .inr List.concat_eq_append, fun c hc ↦ hplain c (by simp [hc]) (hbody c hc)⟩
    · refine ⟨body.concat c, .inl rfl, fun c' hc' ↦ hplain c' hc' ?_⟩
      rw [List.concat_eq_append, List.mem_append, List.mem_singleton] at hc'
      rcases hc' with hc' | rfl
      · exact hbody c' hc'
      · exact hc

/-- A line without a line feed has no carriage return. -/
theorem PlainLines.not_mem_return (h : PlainLines line) (hline : '\n' ∉ line) : '\r' ∉ line := by
  intro hmem
  obtain ⟨before, after, rfl⟩ := List.append_of_mem hmem
  have hnext := List.mem_of_head? h.head?_eq
  exact hline (List.mem_append_right _ (List.mem_cons_of_mem _ hnext))

/-- Every line is simple. -/
theorem PlainLines.simple (h : PlainLines text) :
    ∀ line ∈ numberedLines text, IsSimpleLine line := by
  induction text using lines_induction with
  | last line hline =>
    rw [numberedLines_of_not_mem hline]
    refine List.forall_mem_singleton.2 ⟨line, .inl rfl, fun c hc ↦ ?_⟩
    exact h.not_mem_lineBreaks hc (ne_of_mem_of_not_mem hc hline)
      (ne_of_mem_of_not_mem hc (h.not_mem_return hline))
  | more line rest hline ih =>
    have hrest : PlainLines ((line ++ ['\n']) ++ rest) := by simpa using h
    rw [numberedLines_append hline]
    exact List.forall_mem_cons.2 ⟨h.isSimpleLine hline, ih hrest.of_append⟩

/-- What is shown of a simple line has no line breaks. -/
theorem IsSimpleLine.dropTrailing (h : IsSimpleLine line) :
    ∀ c ∈ dropTrailing '\r' line, c ∉ lineBreaks := by
  obtain ⟨body, hline, hbody⟩ := h
  have hreturn : '\r' ∉ body := fun hmem ↦ hbody _ hmem (by decide)
  have hdrop : JackSyntax.dropTrailing '\r' line = body := by
    rcases hline with rfl | rfl
    · exact dropTrailing_of_not_mem hreturn
    · exact dropTrailing_append_replicate hreturn 1
  rwa [hdrop]

/-- So lines are displayed as they are numbered. -/
theorem PlainLines.simpleThrough (h : PlainLines text) (n : Nat) : SimpleThrough text n where
  before line hline := h.simple line (List.mem_of_mem_take hline)
  last line hline := (h.simple line (List.mem_of_getElem? hline)).dropTrailing

/-! ### Lines and columns -/

/-- Nothing before another character is dropped. -/
theorem dropTrailing_append (hc : c ≠ '\r') (front rest : List Char) :
    dropTrailing '\r' (front ++ c :: rest) = front ++ c :: dropTrailing '\r' rest := by
  have hstops : ((c :: front.reverse).dropWhile (· == '\r')) = c :: front.reverse :=
    List.dropWhile_cons_of_neg (by simpa using hc)
  unfold dropTrailing
  rw [List.reverse_append, List.reverse_cons, List.append_assoc, List.singleton_append,
    List.dropWhile_append, hstops]
  split
  · rename_i hempty
    simp [List.isEmpty_iff.1 hempty]
  · simp

theorem head_numberedLines (text : List Char) :
    (numberedLines text)[0]? = some (text.takeWhile (· != '\n')) := by
  induction text using lines_induction with
  | last line hline =>
    rw [numberedLines_of_not_mem hline, List.takeWhile_eq_self_iff.2]
    · rfl
    · exact fun c hc ↦ by simpa using ne_of_mem_of_not_mem hc hline
  | more line rest hline _ =>
    have hrun : MaximalRun (· != '\n') line ('\n' :: rest) :=
      ⟨fun c hc ↦ by simpa using ne_of_mem_of_not_mem hc hline, by simp⟩
    rw [numberedLines_append hline, hrun.takeWhile]
    rfl

/-- What stands before a place on its line, in a text that is divided there. Its width tells the
column, and the line goes on with what comes after the place. -/
structure Indent (read rest indent : List Char) : Prop where
  suffix : indent <:+ read
  newline : '\n' ∉ indent
  column : (Cursor.start.advance read).column = indent.length + 1
  line : (numberedLines (read ++ rest))[read.count '\n']? =
    some (indent ++ rest.takeWhile (· != '\n'))

/-- Every place in a text is indented by some part of its line. -/
theorem exists_indent (read rest : List Char) : ∃ indent, Indent read rest indent := by
  -- The line after the last line feed read is the first line of what is left then.
  have hfirst : ∀ indent, '\n' ∉ indent →
      (numberedLines (indent ++ rest))[0]? = some (indent ++ rest.takeWhile (· != '\n')) := by
    intro indent hindent
    rw [head_numberedLines, List.takeWhile_append_of_pos fun c hc ↦ by
      simpa using ne_of_mem_of_not_mem hc hindent]
  rcases Cursor.column_advance_cases .start read with
    ⟨before, indent, rfl, hindent, hcolumn⟩ | ⟨hread, hcolumn⟩
  · refine ⟨indent, ⟨before ++ ['\n'], by simp⟩, hindent, hcolumn, ?_⟩
    have hcount : (before ++ '\n' :: indent).count '\n' = (numberedLines before).length := by
      rw [length_numberedLines, List.count_append, List.count_cons_self,
        List.count_eq_zero_of_not_mem hindent]
    have hlines : numberedLines (before ++ '\n' :: indent ++ rest) =
        numberedLines before ++ numberedLines (indent ++ rest) := by
      rw [List.append_assoc]
      exact List.splitOn_append_cons_self before (indent ++ rest)
    rw [hcount, hlines, List.getElem?_append_right (Nat.le_refl _), Nat.sub_self]
    exact hfirst indent hindent
  · refine ⟨read, List.suffix_refl _, hread, hcolumn.trans (Nat.add_comm _ _), ?_⟩
    rw [List.count_eq_zero_of_not_mem hread]
    exact hfirst read hread

/-! ### Tokens and errors in their text -/

/-- Tokens that a tokenizer of a text reads to the end are spelled where their spans are, and the
error it meets is where the scanner fails. -/
theorem Tokenizer.IsOn.remaining_places {t : Tokenizer} {text : String} (h : t.IsOn text) :
    (∀ token ∈ t.remaining.tokens, ∃ read spelling rest,
      text.toList = read ++ (spelling ++ rest) ∧
      Spelled t.limits.maxInteger token.lexeme spelling rest ∧
      startsTrivia (spelling ++ rest) = false ∧
      token.span = ⟨(Cursor.start.advance read).position,
        (Cursor.start.advance (read ++ spelling)).position⟩) ∧
    ∀ e ∈ t.remaining.failure, ∃ read c rest, text.toList = read ++ c :: rest ∧
      startsTrivia (c :: rest) = false ∧
      scanLexeme t.limits.maxInteger c rest = .error e.cause ∧
      e.position = (Cursor.start.advance read).position := by
  induction t using remaining.induct with
  | case1 t token t' hnext ih =>
    obtain ⟨gap, spelling, l, rest, hfront, rfl, rfl⟩ := exists_front hnext
    obtain ⟨read, htext, hcursor⟩ := h
    rw [hfront.rest_eq, ← List.append_assoc] at htext
    have hgap : (t.cursor.advance gap) = Cursor.start.advance (read ++ gap) := by
      rw [Cursor.advance_append, hcursor]
    have hspelling : (t.cursor.advance gap).advance spelling =
        Cursor.start.advance (read ++ gap ++ spelling) := by
      rw [Cursor.advance_append, hgap]
    have hon : (t.past gap spelling rest).IsOn text :=
      ⟨read ++ gap ++ spelling, by rw [htext]; simp only [past, List.append_assoc], hspelling⟩
    obtain ⟨htokens, hfailure⟩ := ih hon
    rw [remaining_of_token hnext]
    refine ⟨List.forall_mem_cons.2 ⟨?_, htokens⟩, hfailure⟩
    refine ⟨read ++ gap, spelling, rest, htext, hfront.spelled, hfront.starts, ?_⟩
    rw [placed, hspelling, hgap]
  | case2 t t' hnext =>
    rw [remaining_of_none hnext]
    exact ⟨List.forall_mem_nil _, by simp⟩
  | case3 t e t' hnext =>
    rw [remaining_of_error hnext]
    refine ⟨List.forall_mem_nil _, fun e' he' ↦ ?_⟩
    obtain rfl := Option.some.inj he'
    cases answers_of_next hnext with
    | @failed c rest cause _ hrest hscan =>
      obtain ⟨read, htext, hcursor⟩ := h.skipTrivia
      have hstarts : startsTrivia (c :: rest) = false := hrest ▸ startsTrivia_splitTrivia t.rest
      exact ⟨read, c, rest, hrest ▸ htext, hstarts, hscan, congrArg Cursor.position hcursor⟩

/-- What is no trivia begins with a character that is neither a line feed nor a carriage return. -/
theorem ne_of_startsTrivia (h : startsTrivia (c :: rest) = false) : c ≠ '\n' ∧ c ≠ '\r' := by
  have hnewline : isBlank '\n' = true := by decide
  have hreturn : isBlank '\r' = true := by decide
  constructor
  · rintro rfl
    simp [startsTrivia, hnewline] at h
  · rintro rfl
    simp [startsTrivia, hreturn] at h

/-- No spelling ends in a carriage return. -/
theorem Spelled.exists_last {maximum : Int} {l : Lexeme} (h : Spelled maximum l spelling rest) :
    ∃ front c, spelling = front ++ [c] ∧ c ≠ '\r' := by
  have hlast : ∀ (p : Char → Bool) {run : List Char}, p '\r' = false → run ≠ [] →
      (∀ c ∈ run, p c = true) → ∃ front c, run = front ++ [c] ∧ c ≠ '\r' := by
    intro p run hp hne hrun
    refine ⟨run.dropLast, run.getLast hne, (List.dropLast_append_getLast hne).symm, fun hc ↦ ?_⟩
    have hpart := hrun _ (List.getLast_mem hne)
    simp [hc, hp] at hpart
  have hne := h.ne_nil
  have hpart : isNamePart '\r' = false := by decide +kernel
  cases h with
  | @symbol s => exact ⟨[], s.char, rfl, by cases s <;> decide⟩
  | integer _ hrun _ => exact hlast Char.isDigit (by decide) hne hrun.all
  | @string value _ _ => exact ⟨'"' :: value, '"', rfl, by decide⟩
  | keyword hword => exact hlast isNamePart hpart hne hword.run.all
  | identifier hword _ => exact hlast isNamePart hpart hne hword.run.all

/-! ### The lines of a complaint -/

namespace Diagnostic

variable {d : Diagnostic}

/-- The line shown is the one with the place complained of. -/
theorem shownText_eq {indent : List Char} (hplain : PlainLines (read ++ rest))
    (htext : d.source.text.toList = read ++ rest)
    (hstart : d.span.start = (Cursor.start.advance read).position)
    (hindent : Indent read rest indent) :
    d.shownText = dropTrailing '\r' (indent ++ rest.takeWhile (· != '\n')) := by
  have hnumber : d.span.start.line - 1 = Int.ofNat (read.count '\n') := by
    have hadvance := Cursor.line_advance .start read
    rw [hstart]
    show ((Cursor.start.advance read).line : Int) - 1 = ((read.count '\n' : Nat) : Int)
    rw [hadvance]
    show ((1 + read.count '\n' : Nat) : Int) - 1 = _
    omega
  rw [shownText, hnumber, htext]
  exact (hplain.simpleThrough _).shown_line hindent.line

/-- The carets below a part of one line are as many as its characters. -/
theorem caretCount_of_line (hspan : d.span = ⟨(Cursor.start.advance read).position,
    (Cursor.start.advance (read ++ spelling)).position⟩) (hline : '\n' ∉ spelling)
    (hne : spelling ≠ []) : d.caretCount = spelling.length := by
  have hpos := List.length_pos_iff.2 hne
  obtain ⟨hlines, hcolumns⟩ := Cursor.advance_of_not_mem hline (Cursor.start.advance read)
  unfold caretCount
  rw [hspan, Cursor.advance_append]
  simp only [Cursor.position, hlines, hcolumns, if_true]
  omega

/-- The carets below a part of more lines go to the end of the line shown. -/
theorem caretCount_of_lines (hspan : d.span = ⟨(Cursor.start.advance read).position,
    (Cursor.start.advance (read ++ spelling)).position⟩) (hlines : '\n' ∈ spelling) :
    d.caretCount = (max 1 (d.shownText.length - d.span.start.column + 1)).toNat := by
  have hcount := List.count_pos_iff.2 hlines
  have hne : ¬ d.span.stop.line = d.span.start.line := by
    rw [hspan, Cursor.advance_append]
    show ¬ (((Cursor.start.advance read).advance spelling).line : Int) =
      (Cursor.start.advance read).line
    rw [Cursor.line_advance]
    omega
  simp only [caretCount, if_neg hne]

/-- One character has one caret. -/
theorem caretCount_singleton {p : Position} (h : d.span = .singleton p) : d.caretCount = 1 := by
  unfold caretCount
  simp only [h, Span.singleton, Position.succ, if_true]
  omega

/-- An empty span has one caret as well. -/
theorem caretCount_empty {p : Position} (h : d.span = .empty p) : d.caretCount = 1 := by
  unfold caretCount
  simp only [h, Span.empty, if_true]
  omega

end Diagnostic

/-- The complaint ends in two lines behind gutters of one width, the first of which tells the number
of the line: the line shown and, so far from its start, so many carets. -/
def Diagnostic.Underlined (d : Diagnostic) (shown : List Char) (indent count : Nat) : Prop :=
  ∃ above bar : String,
    let number := toString d.span.start.line ++ " | "
    d.text = above ++ "\n" ++ (number ++ String.ofList shown) ++ "\n" ++
      (bar ++ repeated ' ' indent ++ repeated '^' count) ∧
    number.length = bar.length ∧ '\n' ∉ number.toList ∧ '\n' ∉ shown ∧ '\n' ∉ bar.toList ∧
    '^' ∉ bar.toList

/-- A number is written with digits only. -/
theorem not_mem_toString {n : Nat} (hc : c.isDigit = false) : c ∉ (toString n).toList := by
  rw [Nat.toString_eq_ofList_toDigits, String.toList_ofList]
  intro hmem
  have hdigit := Nat.isDigit_of_mem_toDigits (by decide) (by decide) hmem
  simp [hc] at hdigit

/-- A complaint about a place of its text ends in the line with the place and carets below it. -/
theorem Diagnostic.underlined {d : Diagnostic} (hplain : PlainLines (read ++ rest))
    (htext : d.source.text.toList = read ++ rest)
    (hstart : d.span.start = (Cursor.start.advance read).position) :
    ∃ indent, Indent read rest indent ∧ d.span.start.column = (indent.length + 1 : Nat) ∧
      d.shownText = dropTrailing '\r' (indent ++ rest.takeWhile (· != '\n')) ∧
      d.Underlined d.shownText indent.length d.caretCount := by
  obtain ⟨indent, hindent⟩ := exists_indent read rest
  have hshown := shownText_eq hplain htext hstart hindent
  have hcolumn : d.span.start.column = (indent.length + 1 : Nat) := by
    rw [hstart]
    exact congrArg Nat.cast hindent.column
  refine ⟨indent, hindent, hcolumn, hshown, ?_⟩
  obtain ⟨above, htext⟩ := d.exists_text_eq_lines
  have hnewline : '\n' ∉ d.shownText := by
    obtain ⟨returns, hsplit⟩ := exists_dropTrailing '\r' (indent ++ rest.takeWhile (· != '\n'))
    have hline : '\n' ∉ indent ++ rest.takeWhile (· != '\n') := by
      refine List.not_mem_append hindent.newline fun hmem ↦ ?_
      simpa using List.mem_takeWhile_imp hmem
    rw [hshown]
    rw [hsplit] at hline
    exact fun hmem ↦ hline (List.mem_append_left _ hmem)
  have hnumber : '\n' ∉ (toString d.span.start.line).toList := by
    rw [hstart]
    exact not_mem_toString (n := (Cursor.start.advance read).line) (by decide)
  refine ⟨above, repeated ' ' ((toString d.span.start.line).length + 1) ++ "| ",
    ?_, ?_, ?_, hnewline, ?_, ?_⟩
  · have hwidth : (d.span.start.column - 1).toNat = indent.length := by omega
    rw [htext, lastLine, hwidth]
    simp only [String.append_assoc]
  · simp only [String.length_append, repeated, String.length_ofList, List.length_replicate]
    rfl
  · simpa [String.toList_append] using hnumber
  · simp [repeated]
  · simp [repeated]

/-! ### What the carets stand under -/

/-- So many carets, so far from the start of the line shown, are below these characters of it. -/
def Covers (shown : List Char) (indent count : Nat) (marked : List Char) : Prop :=
  marked <+: shown.drop indent ∧ marked.length = count

theorem covers_append (indent marked more : List Char) :
    Covers (indent ++ (marked ++ more)) indent.length marked.length marked := by
  rw [Covers, List.drop_left]
  exact ⟨List.prefix_append _ _, rfl⟩

/-- The part of a spelling that is shown on its first line. -/
def firstLine (spelling : List Char) : List Char :=
  dropTrailing '\r' (spelling.takeWhile (· != '\n'))

/-- What the carets are below, by what is complained of. -/
inductive Source.Marks (source : Source) (limits : Limits) (d : Diagnostic) (shown : List Char)
    (indent count : Nat) : Prop
  /-- All of a token that is on one line. -/
  | token {token : Token} {rule expected : Option String} {rest : List Char}
    (htoken : token ∈ (source.reading limits).tokens) (hspan : d.span = token.span)
    (horigin : d.origin = .syntactic rule expected (some token.lexeme.describe))
    (hspelled : Spelled limits.maxInteger token.lexeme (token.span.slice source.text.toList) rest)
    (hline : '\n' ∉ token.span.slice source.text.toList)
    (hcovers : Covers shown indent count (token.span.slice source.text.toList))
  /-- A token that is on more lines up to the end of the line shown. -/
  | tokenFront {token : Token} {rule expected : Option String} {rest : List Char}
    (htoken : token ∈ (source.reading limits).tokens) (hspan : d.span = token.span)
    (horigin : d.origin = .syntactic rule expected (some token.lexeme.describe))
    (hspelled : Spelled limits.maxInteger token.lexeme (token.span.slice source.text.toList) rest)
    (hlines : '\n' ∈ token.span.slice source.text.toList)
    (hcovers : Covers shown indent count (firstLine (token.span.slice source.text.toList)))
    (hend : indent + count = shown.length)
  /-- The first character of what spells no lexeme. -/
  | lexical {e : LexError} {c : Char} {rest : List Char}
    (hfailure : (source.reading limits).failure = some e) (hd : d = e.diagnostic source)
    (hrest : source.text.toList.drop e.position.offset.toNat = c :: rest)
    (hscan : scanLexeme limits.maxInteger c rest = .error e.cause)
    (hcovers : Covers shown indent count [c])
  /-- One column past the last line. -/
  | endOfInput {rule expected : Option String} (hspan : d.span = .empty (endPosition source.text))
    (horigin : d.origin = .syntactic rule expected (some "end of input"))
    (hlast : (numberedLines source.text.toList).getLast? = some shown)
    (hindent : indent = shown.length) (hcount : count = 1)

section Marks

variable {source : Source} {limits : Limits} {d : Diagnostic}

/-- A span covers what was read between its ends. -/
theorem slice_of_span {span : Span} (h : span = ⟨(Cursor.start.advance read).position,
    (Cursor.start.advance (read ++ spelling)).position⟩) :
    span.slice (read ++ (spelling ++ rest)) = spelling := by
  have hstart : span.start.offset.toNat = read.length := by
    rw [h]
    exact Cursor.offset_start_advance read
  have hstop : span.stop.offset.toNat = read.length + spelling.length := by
    rw [h, ← List.length_append]
    exact Cursor.offset_start_advance (read ++ spelling)
  rw [Span.slice, hstart, hstop, List.drop_left, Nat.add_sub_cancel_left, List.take_left]

/-- The line shown begins with what comes before the place, and goes on to the end of a spelling on
that line. -/
theorem covers_of_line {shown indent : List Char} {l : Lexeme} {maximum : Int}
    (hshown : shown = dropTrailing '\r' (indent ++ (spelling ++ rest).takeWhile (· != '\n')))
    (hspelled : Spelled maximum l spelling rest) (hline : '\n' ∉ spelling) :
    Covers shown indent.length spelling.length spelling := by
  obtain ⟨front, c, rfl, hc⟩ := hspelled.exists_last
  have htake : (front ++ [c] ++ rest).takeWhile (· != '\n') =
      front ++ c :: rest.takeWhile (· != '\n') := by
    rw [List.takeWhile_append_of_pos fun c' hc' ↦ by simpa using ne_of_mem_of_not_mem hc' hline,
      List.append_assoc, List.singleton_append]
  rw [htake, ← List.append_assoc, dropTrailing_append hc, List.append_assoc] at hshown
  have hcovers := covers_append indent (front ++ [c])
    (dropTrailing '\r' (rest.takeWhile (· != '\n')))
  rwa [List.append_assoc, List.singleton_append, ← hshown] at hcovers

theorem firstLine_cons (hc : c ≠ '\n' ∧ c ≠ '\r') (text : List Char) :
    firstLine (c :: text) = c :: dropTrailing '\r' (text.takeWhile (· != '\n')) := by
  have htake : (c :: text).takeWhile (· != '\n') = c :: text.takeWhile (· != '\n') :=
    List.takeWhile_cons_of_pos (by simpa using hc.1)
  rw [firstLine, htake]
  exact dropTrailing_append hc.2 [] _

/-- A line that has a character at the place is shown as it is up to there. -/
theorem shown_eq_append {shown indent : List Char} (hc : c ≠ '\n' ∧ c ≠ '\r')
    (hshown : shown = dropTrailing '\r' (indent ++ (c :: rest).takeWhile (· != '\n'))) :
    shown = indent ++ firstLine (c :: rest) := by
  have htake : (c :: rest).takeWhile (· != '\n') = c :: rest.takeWhile (· != '\n') :=
    List.takeWhile_cons_of_pos (by simpa using hc.1)
  rw [hshown, firstLine_cons hc, htake, dropTrailing_append hc.2]

/-- The first line of a spelling does not depend on what comes after the spelling. -/
theorem firstLine_append (hlines : '\n' ∈ spelling) (rest : List Char) :
    firstLine (spelling ++ rest) = firstLine spelling := by
  obtain ⟨line, more, rfl, hline⟩ := List.eq_append_cons_of_mem hlines
  have hrun : ∀ more, MaximalRun (· != '\n') line ('\n' :: more) := fun _ ↦
    ⟨fun c hc ↦ by simpa using ne_of_mem_of_not_mem hc hline, by simp⟩
  rw [firstLine, firstLine, List.append_assoc, List.cons_append, (hrun _).takeWhile,
    (hrun _).takeWhile]

/-- A complaint about a token. -/
theorem Source.marks_token {token : Token} {rule expected : Option String}
    (hplain : PlainLines source.text.toList) (hsource : d.source = source)
    (htoken : token ∈ (source.reading limits).tokens) (hspan : d.span = token.span)
    (horigin : d.origin = .syntactic rule expected (some token.lexeme.describe)) :
    ∃ indent, d.Underlined d.shownText indent d.caretCount ∧
      source.Marks limits d d.shownText indent d.caretCount := by
  have hplaces := (Tokenizer.isOn_ofText source.text limits).remaining_places.1
  obtain ⟨read, spelling, rest, htext, hspelled, hstarts, hplace⟩ := hplaces token htoken
  have hplace' := hspan.trans hplace
  have hslice : token.span.slice source.text.toList = spelling := by
    rw [htext]
    exact slice_of_span hplace
  rw [htext] at hplain
  have hd : d.source.text.toList = read ++ (spelling ++ rest) := by rw [hsource, htext]
  obtain ⟨indent, -, hcolumn, hshown, hunderlined⟩ :=
    Diagnostic.underlined hplain hd (by rw [hplace'])
  refine ⟨indent.length, hunderlined, ?_⟩
  rw [← hslice] at hspelled
  by_cases hlines : '\n' ∈ spelling
  · obtain ⟨c, more, rfl⟩ := List.exists_cons_of_ne_nil (List.ne_nil_of_mem hlines)
    have hne := ne_of_startsTrivia hstarts
    have hfirst : d.shownText = indent ++ firstLine (c :: more) :=
      (shown_eq_append hne hshown).trans (congrArg _ (firstLine_append hlines rest))
    have hpos : 0 < (firstLine (c :: more)).length := by
      rw [firstLine_cons hne]
      exact Nat.zero_lt_succ _
    have hlength := congrArg List.length hfirst
    rw [List.length_append] at hlength
    have hcount : d.caretCount = (firstLine (c :: more)).length := by
      rw [Diagnostic.caretCount_of_lines hplace' hlines, hcolumn]
      omega
    refine .tokenFront htoken hspan horigin hspelled (hslice ▸ hlines) ?_ (by omega)
    have hcovers := covers_append indent (firstLine (c :: more)) []
    rwa [List.append_nil, ← hfirst, ← hcount, ← hslice] at hcovers
  · have hcount := Diagnostic.caretCount_of_line hplace' hlines (hslice ▸ hspelled.ne_nil)
    refine .token htoken hspan horigin hspelled (hslice ▸ hlines) ?_
    rw [hslice, hcount]
    exact covers_of_line hshown (hslice ▸ hspelled) hlines

/-- A complaint about what spells no lexeme. -/
theorem Source.marks_lexical {e : LexError} (hplain : PlainLines source.text.toList)
    (hfailure : (source.reading limits).failure = some e) :
    let d := e.diagnostic source
    ∃ indent, d.Underlined d.shownText indent d.caretCount ∧
      source.Marks limits d d.shownText indent d.caretCount := by
  intro d
  have hplaces := (Tokenizer.isOn_ofText source.text limits).remaining_places.2
  obtain ⟨read, c, rest, htext, hstarts, hscan, hplace⟩ := hplaces e hfailure
  have hrest : source.text.toList.drop e.position.offset.toNat = c :: rest := by
    have hoffset : e.position.offset.toNat = read.length := by
      rw [hplace]
      exact Cursor.offset_start_advance read
    rw [htext, hoffset, List.drop_left]
  rw [htext] at hplain
  have hstart : d.span.start = (Cursor.start.advance read).position := hplace
  obtain ⟨indent, -, -, hshown, hunderlined⟩ := Diagnostic.underlined hplain htext hstart
  refine ⟨indent.length, hunderlined, .lexical hfailure rfl hrest hscan ?_⟩
  have hne := ne_of_startsTrivia hstarts
  rw [Diagnostic.caretCount_singleton rfl, shown_eq_append hne hshown, firstLine_cons hne]
  exact covers_append indent [c] _

/-- A complaint about the end of a text. -/
theorem Source.marks_endOfInput {rule expected : Option String}
    (hplain : PlainLines source.text.toList) (hsource : d.source = source)
    (hspan : d.span = .empty (endPosition source.text))
    (horigin : d.origin = .syntactic rule expected (some "end of input")) :
    ∃ indent, d.Underlined d.shownText indent d.caretCount ∧
      source.Marks limits d d.shownText indent d.caretCount := by
  have hend : source.text.toList = source.text.toList ++ [] := (List.append_nil _).symm
  have hd : d.source.text.toList = source.text.toList ++ [] := by rw [hsource, ← hend]
  have hstart : d.span.start = (Cursor.start.advance source.text.toList).position := by
    rw [hspan, position_advance_eq_endPosition]
    rfl
  obtain ⟨indent, hindent, hcolumn, hshown, hunderlined⟩ :=
    Diagnostic.underlined (hend ▸ hplain) hd hstart
  have hline := hindent.line
  rw [List.takeWhile_nil, List.append_nil] at hshown hline
  have hreturn : '\r' ∉ indent := by
    obtain ⟨before, hbefore⟩ := hindent.suffix
    rw [← hbefore] at hplain
    exact hplain.of_append.not_mem_return hindent.newline
  rw [dropTrailing_of_not_mem hreturn] at hshown
  refine ⟨indent.length, hunderlined, .endOfInput hspan horigin ?_ ?_ ?_⟩
  · rw [List.getLast?_eq_getElem?, length_numberedLines, Nat.add_sub_cancel, hshown]
    rwa [List.append_nil] at hline
  · rw [hshown]
  · exact Diagnostic.caretCount_empty hspan

/-- The last two lines of a complaint are a line of the source and carets, behind gutters of one
width. The carets are below the token complained of, as far as it is on that line, or below the
first character of what spells no lexeme, or at the end of the last line. -/
theorem Source.complaint_underlines (hplain : PlainLines source.text.toList)
    (h : source.tokens limits = .error d ∨ source.events limits = .error d) :
    ∃ shown indent count, d.Underlined shown indent count ∧
      source.Marks limits d shown indent count := by
  have hmarks : ∃ indent, d.Underlined d.shownText indent d.caretCount ∧
      source.Marks limits d d.shownText indent d.caretCount := by
    rcases h with h | h
    · simp only [tokens] at h
      split at h
      · simp at h
      · rename_i e he
        obtain rfl := Except.error.inj h
        exact marks_lexical hplain he
    · rw [events] at h
      split at h
      · simp at h
      · rename_i failure s hrun
        obtain rfl := Except.error.inj h
        cases Session.run_blames hrun (Fit.start _) with
        | lexical he _ => exact marks_lexical hplain he
        | @token e token i htoken hfound _ _ =>
          have hspan : e.found.span = token.span := by rw [hfound, Found.span]
          have horigin : (e.diagnostic source).origin =
              .syntactic (e.rule.map Rule.name) e.expected.text (some token.lexeme.describe) := by
            rw [SyntaxError.diagnostic, hfound, Found.text]
          exact marks_token hplain rfl (List.mem_of_getElem? htoken) hspan horigin
        | @endOfInput e _ hfound _ _ =>
          have hspan : e.found.span = .empty (endPosition source.text) := by
            rw [hfound, Found.span]
            rfl
          have horigin : (e.diagnostic source).origin =
              .syntactic (e.rule.map Rule.name) e.expected.text (some "end of input") := by
            rw [SyntaxError.diagnostic, hfound, Found.text]
          exact marks_endOfInput hplain rfl hspan horigin
  obtain ⟨indent, hunderlined, hmarks⟩ := hmarks
  exact ⟨d.shownText, indent, d.caretCount, hunderlined, hmarks⟩

/-- A string constant with an end of a line in it, in front of a character that spells nothing. -/
theorem complaint_underlines_after_string :
    let source : Source := ⟨"input.jack", "\"a\r\nb\" ?\r\n"⟩
    let d : Diagnostic :=
      ⟨"unrecognized character '?'", .singleton ⟨2, 4, 7⟩, source, .lexical⟩
    source.tokens ⟨9, 9⟩ = .error d ∧ ∃ shown indent count,
      d.Underlined shown indent count ∧ source.Marks ⟨9, 9⟩ d shown indent count := by
  intro source d
  have herror : source.tokens ⟨9, 9⟩ = .error d := by decide +kernel
  have hothers : otherBreaks.all (fun c ↦ !source.text.toList.contains c) = true := by
    decide +kernel
  have hplain : PlainLines source.text.toList :=
    ⟨by decide +kernel, fun c hc ↦ by simpa using List.all_eq_true.1 hothers c hc⟩
  exact ⟨herror, source.complaint_underlines hplain (.inl herror)⟩

end Marks

end JackSyntax
