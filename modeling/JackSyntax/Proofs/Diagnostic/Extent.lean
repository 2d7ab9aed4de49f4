import JackSyntax.Proofs.Diagnostic.Carets

/-!
# The part of a text that a complaint is about

A parse fails at a token, at a character that starts no token or at the end of the text. In each
case the complaint is about one part of the text, and its span goes from where the part begins to
where it has ended (`Diagnostic.IsAbout`). So all that can be said about the span follows from how
cursors move over a text that is divided in three. The part of a lexical error is one character,
which is never a line feed, since line feeds are blank and passed over; the end of the text is the
one part without characters.

## Main statements

* `Source.exists_isAbout`: a failed parse complains of a part of its source.
-/

namespace JackSyntax

variable {source : Source} {limits : Limits} {d : Diagnostic} {read part rest : List Char}

/-- The complaint is about the middle one of three pieces that make up its text, and that piece is
empty exactly if what was found is the end of the text. -/
structure Diagnostic.IsAbout (d : Diagnostic) (read part rest : List Char) : Prop where
  text_eq : d.source.text.toList = read ++ (part ++ rest)
  span_eq : d.span =
    ⟨(Cursor.start.advance read).position, (Cursor.start.advance (read ++ part)).position⟩
  part_eq_nil_iff : part = [] ↔
    ∃ rule expected, d.origin = .syntactic rule expected (some "end of input")

/-- The place past a character that ends no line is the next column. -/
theorem Cursor.position_advance_singleton {c : Char} (hc : c ≠ '\n') (cursor : Cursor) :
    (cursor.advance [c]).position = cursor.position.succ := by
  obtain ⟨hline, hcolumn⟩ := step_of_ne hc cursor
  show Position.mk (cursor.step c).line (cursor.step c).column (cursor.step c).offset = _
  rw [hline, hcolumn]
  rfl

/-- A lexical error is about one character. -/
theorem Source.isAbout_of_failure {e : LexError}
    (he : e ∈ (source.reading limits).failure) :
    ∃ read part rest, (e.diagnostic source).IsAbout read part rest := by
  have hplaces := (Tokenizer.isOn_ofText source.text limits).remaining_places.2
  obtain ⟨read, c, rest, htext, hstarts, -, hposition⟩ := hplaces e he
  refine ⟨read, [c], rest, htext, ?_, ?_⟩
  · show Span.singleton e.position = _
    rw [Cursor.advance_append, Cursor.position_advance_singleton (ne_of_startsTrivia hstarts).1,
      hposition]
    rfl
  · refine iff_of_false (List.cons_ne_nil c []) ?_
    rintro ⟨rule, expected, horigin⟩
    simp [LexError.diagnostic] at horigin

/-- A syntax error at a token is about its spelling. -/
theorem Source.isAbout_of_token {e : SyntaxError} {token : Token}
    (htoken : token ∈ (source.reading limits).tokens) (hfound : e.found = .token token) :
    ∃ read part rest, (e.diagnostic source).IsAbout read part rest := by
  have hplaces := (Tokenizer.isOn_ofText source.text limits).remaining_places.1
  obtain ⟨read, spelling, rest, htext, hspelled, -, hspan⟩ := hplaces token htoken
  refine ⟨read, spelling, rest, htext, ?_, ?_⟩
  · show e.found.span = _
    rw [hfound]
    exact hspan
  · refine iff_of_false hspelled.ne_nil ?_
    rintro ⟨rule, expected, horigin⟩
    rw [SyntaxError.diagnostic, hfound] at horigin
    obtain ⟨-, -, htext⟩ := Diagnostic.Origin.syntactic.inj horigin
    exact token.lexeme.describe_ne (Option.some.inj htext)

/-- A syntax error at the end of the text is about nothing. -/
theorem Source.isAbout_of_endOfInput {e : SyntaxError}
    (hfound : e.found = .endOfInput (endPosition source.text)) :
    ∃ read part rest, (e.diagnostic source).IsAbout read part rest := by
  refine ⟨source.text.toList, [], [], (List.append_nil _).symm, ?_, ?_⟩
  · show e.found.span = _
    rw [hfound, List.append_nil, position_advance_eq_endPosition]
    rfl
  · refine iff_of_true rfl ⟨e.rule.map Rule.name, e.expected.text, ?_⟩
    rw [SyntaxError.diagnostic, hfound]
    rfl

/-- A failed parse complains of a part of its source. -/
theorem Source.exists_isAbout (h : source.events limits = .error d) :
    d.source = source ∧ ∃ read part rest, d.IsAbout read part rest := by
  rw [events] at h
  split at h
  · simp at h
  · rename_i failure s hrun
    obtain rfl := Except.error.inj h
    rcases Session.run_blames hrun (Fit.start _) with
      ⟨he, -⟩ | ⟨htoken, hfound, -, -⟩ | ⟨-, hfound, -, -⟩
    · exact ⟨rfl, isAbout_of_failure he⟩
    · exact ⟨rfl, isAbout_of_token (List.mem_of_getElem? htoken) hfound⟩
    · exact ⟨rfl, isAbout_of_endOfInput hfound⟩

end JackSyntax
