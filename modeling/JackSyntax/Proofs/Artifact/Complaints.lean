import JackSyntax.Diagnostic.Snippet
import JackSyntax.Proofs.Artifact.Unit
import JackSyntax.Proofs.Lexer.Segmentation
import JackSyntax.Proofs.Parser.ViablePrefix

/-!
# The first complaint about a source

A parse reads its text as far as it has to, so it may complain of a token although the text cannot
be read to its end. If the text is read to its end first, it is the lexical error that is complained
of (`Source.complaint`). The two complaints differ just where the parse complains of a token in
front of a lexical error, and then they also differ as texts: no lexical error is worded like an
unexpected token.

## Main statements

* `Source.parsed_of_events`: what a parse complains of, against the tokens of the source.
* `Source.text_complaint_ne_iff`: when the two complaints are worded differently.
-/

namespace JackSyntax

/-! ### Wordings -/

/-- How the wordings of the errors start that come up when lexemes are scanned. -/
def lexicalStarts : List (List Char) :=
  [['u', 'n', 'r'], ['i', 'n', 't'], ['u', 'n', 't']]

/-- How complaints about a token start. -/
def syntacticStarts : List (List Char) :=
  [['e', 'x', 'p'], ['u', 'n', 'e']]

/-- Words are scanned only where one starts, so there is always one. -/
theorem message_of_scanLexeme {maximum : Int} {c : Char} {text : List Char} {cause : LexError.Cause}
    (h : scanLexeme maximum c text = .error cause) :
    ∃ start ∈ lexicalStarts, start <+: cause.message.toList := by
  unfold scanLexeme at h
  split at h
  · simp at h
  · split at h
    · simp only [scanInteger] at h
      split at h
      · obtain rfl := Except.error.inj h
        refine ⟨['i', 'n', 't'], by simp [lexicalStarts], ?_⟩
        show _ <+: ("integer constant " ++ _ ++ " is out of range (maximum " ++ _ ++ ")").toList
        simp
      · simp at h
    · rename_i hdigit
      split at h
      · unfold scanString at h
        split at h
        · obtain rfl := Except.error.inj h
          refine ⟨['u', 'n', 't'], by simp [lexicalStarts], ?_⟩
          show _ <+: "unterminated string literal".toList
          simp
        · simp at h
      · split at h
        · rename_i hstart
          simp [scanWord, hdigit, hstart] at h
        · obtain rfl := Except.error.inj h
          refine ⟨['u', 'n', 'r'], by simp [lexicalStarts], ?_⟩
          show _ <+: ("unrecognized character " ++ _).toList
          simp

theorem Tokenizer.message_of_remaining {t : Tokenizer} {e : LexError}
    (h : t.remaining.failure = some e) :
    ∃ start ∈ lexicalStarts, start <+: e.cause.message.toList := by
  induction t using remaining.induct with
  | case1 t token t' hnext ih =>
    rw [remaining_of_token hnext] at h
    exact ih h
  | case2 t t' hnext =>
    rw [remaining_of_none hnext] at h
    simp at h
  | case3 t e' t' hnext =>
    rw [remaining_of_error hnext] at h
    obtain rfl := Option.some.inj h
    cases answers_of_next hnext with
    | failed _ _ hscan => exact message_of_scanLexeme hscan

theorem SyntaxError.message_of_token {e : SyntaxError} {token : Token}
    (h : e.found = .token token) : ∃ start ∈ syntacticStarts, start <+: e.message.toList := by
  simp only [message, h]
  cases e.expected with
  | endOfInput => exact ⟨['u', 'n', 'e'], by simp [syntacticStarts], by simp⟩
  | _ => exact ⟨['e', 'x', 'p'], by simp [syntacticStarts], by simp⟩

/-- The text of a complaint has its wording first. -/
theorem Diagnostic.exists_text_eq_message (d : Diagnostic) :
    ∃ rest, d.text.toList = "error: ".toList ++ (d.message.toList ++ rest) := by
  unfold text format
  simp only [String.append_assoc, String.toList_append]
  exact ⟨_, rfl⟩

/-- Complaints whose wordings start differently have different texts. -/
theorem Diagnostic.text_ne {d d' : Diagnostic} {start start' : List Char}
    (h : start <+: d.message.toList) (h' : start' <+: d'.message.toList)
    (hlength : start.length = start'.length) (hne : start ≠ start') : d.text ≠ d'.text := by
  intro heq
  obtain ⟨rest, htext⟩ := d.exists_text_eq_message
  obtain ⟨rest', htext'⟩ := d'.exists_text_eq_message
  rw [heq, htext'] at htext
  have hstart' := h'.trans (List.prefix_append _ rest')
  rw [List.append_cancel_left htext] at hstart'
  have hstart := h.trans (List.prefix_append _ rest)
  have hstarts := List.prefix_of_prefix_length_le hstart hstart' (Nat.le_of_eq hlength)
  exact hne (hstarts.eq_of_length hlength)

/-! ### Tokens before an error -/

/-- Tokens end before what is left after the last of them. -/
theorem Segmented.stop_add_length_le {maximum : Int} {offset : Nat} {text remainder : List Char}
    {tokens : List Token} (h : Segmented maximum offset text tokens remainder) :
    (offset + remainder.length ≤ offset + text.length) ∧ ∀ token ∈ tokens,
      token.span.stop.offset + remainder.length ≤ (offset + text.length : Nat) := by
  induction h with
  | nil => exact ⟨Nat.le_refl _, by simp⟩
  | cons _ _ _ _ hstop _ ih =>
    obtain ⟨hle, hrest⟩ := ih
    simp only [List.length_append]
    refine ⟨by omega, List.forall_mem_cons.2 ⟨by omega, fun token htoken ↦ ?_⟩⟩
    have := hrest token htoken
    omega

/-- All tokens of a source end before the lexical error. -/
theorem Source.stop_le_failure {source : Source} {limits : Limits} {token : Token} {e : LexError}
    (htoken : token ∈ (source.reading limits).tokens)
    (hfailure : (source.reading limits).failure = some e) :
    token.span.stop.offset ≤ e.position.offset := by
  obtain ⟨remainder, hsegmented, hremains⟩ :=
    (Tokenizer.ofText source.text limits).remaining_segmented
  obtain ⟨-, hstop⟩ := hsegmented.stop_add_length_le
  have hle := hstop token htoken
  change Tokenizer.Reading.failure (Tokenizer.remaining _) = _ at hfailure
  rw [hfailure] at hremains
  cases hremains with
  | fault _ _ _ _ hposition _ =>
    simp only [List.length_append] at hle
    omega

/-! ### The complaint of a parse -/

namespace Source

variable {source : Source} {limits : Limits} {d : Diagnostic}

/-- What a parse may complain of: the lexical error of the source, one of its tokens, or the end of
a text without lexical error. -/
inductive Parsed (source : Source) (limits : Limits) : Diagnostic → Prop
  | lexical {e : LexError} (hfailure : (source.reading limits).failure = some e) :
    Parsed source limits (e.diagnostic source)
  | token {e : SyntaxError} {token : Token} (htoken : token ∈ (source.reading limits).tokens)
    (hfound : e.found = .token token) : Parsed source limits (e.diagnostic source)
  | endOfInput {e : SyntaxError} (hfailure : (source.reading limits).failure = none) :
    Parsed source limits (e.diagnostic source)

theorem parsed_of_events (h : source.events limits = .error d) : source.Parsed limits d := by
  rw [events] at h
  split at h
  · simp at h
  · rename_i failure s hrun
    obtain rfl := Except.error.inj h
    cases Session.run_blames hrun (Fit.start _) with
    | lexical hfailure _ => exact .lexical hfailure
    | token htoken hfound _ _ => exact .token (List.mem_of_getElem? htoken) hfound
    | endOfInput hfailure _ _ _ => exact .endOfInput hfailure

/-- A text without lexical error has none that its parse complains of. -/
theorem Parsed.origin_ne (h : source.Parsed limits d)
    (hfailure : (source.reading limits).failure = none) : d.origin ≠ .lexical := by
  cases h with
  | lexical hfailure' => simp [hfailure] at hfailure'
  | token => simp [SyntaxError.diagnostic]
  | endOfInput => simp [SyntaxError.diagnostic]

/-- The parse complains of something in front of the lexical error. -/
theorem Parsed.stop_le {e : LexError} (h : source.Parsed limits d)
    (hfailure : (source.reading limits).failure = some e) (horigin : d.origin ≠ .lexical) :
    d.span.stop.offset ≤ e.position.offset := by
  cases h with
  | lexical => exact absurd rfl horigin
  | token htoken hfound =>
    simpa [SyntaxError.diagnostic, hfound, Found.span] using stop_le_failure htoken hfailure
  | endOfInput hfailure' => simp [hfailure] at hfailure'

theorem Parsed.text_ne {e : LexError} (h : source.Parsed limits d)
    (hfailure : (source.reading limits).failure = some e) (horigin : d.origin ≠ .lexical) :
    (e.diagnostic source).text ≠ d.text := by
  cases h with
  | lexical => exact absurd rfl horigin
  | endOfInput hfailure' => simp [hfailure] at hfailure'
  | token _ hfound =>
    obtain ⟨start, hstart, hlexical⟩ := Tokenizer.message_of_remaining hfailure
    obtain ⟨start', hstart', hsyntactic⟩ := SyntaxError.message_of_token hfound
    have hdifferent : ∀ start ∈ lexicalStarts, ∀ start' ∈ syntacticStarts,
        start.length = start'.length ∧ start ≠ start' := by decide
    obtain ⟨hlength, hne⟩ := hdifferent start hstart start' hstart'
    exact Diagnostic.text_ne hlexical hsyntactic hlength hne

/-- A lexical error that the parse complains of is the one that is met when the text is read first.
-/
theorem Parsed.complaint_eq (h : source.Parsed limits d) (horigin : d.origin = .lexical)
    (readFirst : Bool) : source.complaint limits readFirst d = d := by
  cases h with
  | lexical hfailure =>
    rw [complaint, hfailure]
    exact ite_self _
  | token => simp [SyntaxError.diagnostic] at horigin
  | endOfInput => simp [SyntaxError.diagnostic] at horigin

/-- The complaints are worded differently just where the parse complains of something else than the
lexical error, which then comes after it. -/
theorem text_complaint_ne_iff (h : source.events limits = .error d) :
    (source.complaint limits true d).text ≠ d.text ↔
      d.origin ≠ .lexical ∧ ∃ e, (source.reading limits).failure = some e ∧
        d.span.stop.offset ≤ e.position.offset := by
  have hparsed := parsed_of_events h
  by_cases horigin : d.origin = .lexical
  · simp [hparsed.complaint_eq horigin, horigin]
  · cases hfailure : (source.reading limits).failure with
    | none => simp [complaint, hfailure]
    | some e =>
      have hne := hparsed.text_ne hfailure horigin
      simp [complaint, hfailure, horigin, hne, hparsed.stop_le hfailure horigin]

end Source

end JackSyntax
