import Mathlib.Data.List.Forall2
import JackSyntax.Editor.Server
import JackSyntax.Proofs.Diagnostic.Extent

/-!
# What an editor is told

Each notice of a document is answered with one publication, whatever came before, since nothing but
the text of the document counts and the workspace has that text. The publication holds a mark
exactly if the text is no class. The mark is the complaint of the parser with its places counted
from zero, and lies in the document: where the text is divided is a place of one of its lines
(`Place.isIn_advance`), and later divisions are later places (`Place.le_advance`), so the claims
about both ends follow from what part of the text the complaint is about.

## Main statements

* `Mark.tells_ofDiagnostic`: a mark is exact, and lies in the text.
* `receiveAll_answers`: each notice is answered, once and for its document.
-/

namespace JackSyntax

namespace Editor

variable {σ : Type} {d : Diagnostic} {read part rest : List Char}

/-! ### Places of a text -/

/-- One place comes no later than another. -/
instance : LE Place where
  le p q := p.line < q.line ∨ p.line = q.line ∧ p.character ≤ q.character

/-- The place is on a line of the text, and not past the end of that line. -/
def Place.IsIn (p : Place) (text : List Char) : Prop :=
  ∃ (n : Nat) (line : List Char), p.line = n ∧ (numberedLines text)[n]? = some line ∧
    0 ≤ p.character ∧ p.character ≤ line.length

/-- Where a text is divided is one of its places. -/
theorem Place.isIn_advance (read rest : List Char) :
    (ofPosition (Cursor.start.advance read).position).IsIn (read ++ rest) := by
  obtain ⟨indent, hindent⟩ := exists_indent read rest
  have hline : (Cursor.start.advance read).line = 1 + read.count '\n' :=
    Cursor.line_advance .start read
  refine ⟨read.count '\n', _, ?_, hindent.line, ?_, ?_⟩
  · show ((Cursor.start.advance read).line : Int) - 1 = _
    rw [hline]
    omega
  · show 0 ≤ ((Cursor.start.advance read).column : Int) - 1
    rw [hindent.column]
    omega
  · show ((Cursor.start.advance read).column : Int) - 1 ≤ _
    rw [hindent.column, List.length_append]
    omega

/-- Later divisions of a text are later places. -/
theorem Place.le_advance (cursor : Cursor) (part : List Char) :
    ofPosition cursor.position ≤ ofPosition (cursor.advance part).position ∧
      (ofPosition cursor.position = ofPosition (cursor.advance part).position ↔ part = []) := by
  by_cases hlines : '\n' ∈ part
  · have hcount := List.count_pos_iff.2 hlines
    have hline := cursor.line_advance part
    have hlt : (ofPosition cursor.position).line <
        (ofPosition (cursor.advance part).position).line := by
      show (cursor.line : Int) - 1 < ((cursor.advance part).line : Int) - 1
      omega
    refine ⟨.inl hlt, iff_of_false (fun heq ↦ ?_) (List.ne_nil_of_mem hlines)⟩
    exact absurd (congrArg Place.line heq) (Int.ne_of_lt hlt)
  · obtain ⟨hline, hcolumn⟩ := Cursor.advance_of_not_mem hlines cursor
    have hsame : (ofPosition cursor.position).line =
        (ofPosition (cursor.advance part).position).line := by
      show (cursor.line : Int) - 1 = ((cursor.advance part).line : Int) - 1
      omega
    have hshift : (ofPosition (cursor.advance part).position).character =
        (ofPosition cursor.position).character + part.length := by
      show ((cursor.advance part).column : Int) - 1 = (cursor.column : Int) - 1 + part.length
      omega
    refine ⟨.inr ⟨hsame, by omega⟩, fun heq ↦ ?_, ?_⟩
    · have hzero := congrArg Place.character heq
      exact List.eq_nil_of_length_eq_zero (by omega)
    · rintro rfl
      rfl

/-! ### Marks -/

/-- The mark tells the complaint as an error: its message, and its span with both numbers from zero.
It lies in the text, and is empty exactly if the complaint is that the text has ended. -/
structure Mark.Tells (mark : Mark) (d : Diagnostic) (text : List Char) : Prop where
  message : mark.message = d.message
  severity : mark.severity = 1
  source : mark.source = "jackanalyzer"
  start : mark.start = ⟨d.span.start.line - 1, d.span.start.column - 1⟩
  stop : mark.stop = ⟨d.span.stop.line - 1, d.span.stop.column - 1⟩
  start_isIn : mark.start.IsIn text
  stop_isIn : mark.stop.IsIn text
  start_le_stop : mark.start ≤ mark.stop
  start_eq_stop_iff : mark.start = mark.stop ↔
    ∃ rule expected, d.origin = .syntactic rule expected (some "end of input")

/-- A complaint about a part of its text is told exactly. -/
theorem Mark.tells_ofDiagnostic (h : d.IsAbout read part rest) :
    (Mark.ofDiagnostic d).Tells d d.source.text.toList := by
  have hstart : (Mark.ofDiagnostic d).start =
      Place.ofPosition (Cursor.start.advance read).position :=
    congrArg (fun span : Span ↦ Place.ofPosition span.start) h.span_eq
  have hstop : (Mark.ofDiagnostic d).stop =
      Place.ofPosition (Cursor.start.advance (read ++ part)).position :=
    congrArg (fun span : Span ↦ Place.ofPosition span.stop) h.span_eq
  obtain ⟨hle, hiff⟩ := Place.le_advance (Cursor.start.advance read) part
  rw [← Cursor.advance_append, ← hstart, ← hstop] at hle hiff
  exact {
    message := rfl
    severity := rfl
    source := rfl
    start := rfl
    stop := rfl
    start_isIn := by
      rw [hstart, h.text_eq]
      exact Place.isIn_advance read _
    stop_isIn := by
      rw [hstop, h.text_eq, ← List.append_assoc]
      exact Place.isIn_advance (read ++ part) rest
    start_le_stop := hle
    start_eq_stop_iff := hiff.trans h.part_eq_nil_iff }

/-! ### Notices -/

/-- The document that the notice is of. -/
def Notice.uri : Notice → String
  | .opened uri _ | .changed uri _ => uri

/-- The text that the document holds then. -/
def Notice.text : Notice → String
  | .opened _ text | .changed _ text => text

/-- The document as a source. -/
def Notice.source (notice : Notice) : Source where
  name := documentName notice.uri
  text := notice.text

/-- The publication is about the document, and tells the one complaint about its text, or none if it
is a class. -/
structure Notice.Answers (notice : Notice) (p : Publication) : Prop where
  uri : p.uri = notice.uri
  marks_eq_nil_iff : p.marks = [] ↔ ∃ events, notice.source.events {} = .ok events
  marks_of_error : ∀ d, notice.source.events {} = .error d →
    ∃ mark, p.marks = [mark] ∧ mark.Tells d notice.text.toList

/-- What is published about a text. -/
theorem Notice.answers_publish (notice : Notice) :
    notice.Answers (publish notice.uri notice.text) := by
  rcases hevents : notice.source.events {} with d | events
  · obtain ⟨hsource, read, part, rest, habout⟩ := Source.exists_isAbout hevents
    have hmarks : (publish notice.uri notice.text).marks = [.ofDiagnostic d] := by
      rw [source] at hevents
      simp only [publish, hevents]
    have htells := Mark.tells_ofDiagnostic habout
    rw [hsource] at htells
    refine ⟨rfl, ?_, fun d' hd' ↦ ?_⟩
    · simp [hmarks, hevents]
    · obtain rfl := Except.error.inj (hevents.symm.trans hd')
      exact ⟨_, hmarks, htells⟩
  · have hmarks : (publish notice.uri notice.text).marks = [] := by
      rw [source] at hevents
      simp only [publish, hevents]
    exact ⟨rfl, iff_of_true hmarks ⟨events, hevents⟩, fun d hd ↦ by simp [hevents] at hd⟩

/-- The workspace has the text of the notice, so that is what is published about. -/
theorem receive_eq (w : Workspace σ) (s : σ) (notice : Notice) :
    (receive w s notice).1 = [publish notice.uri notice.text] := by
  rcases notice with ⟨uri, text⟩ | ⟨uri, text⟩
  · exact congrArg (fun found ↦ [publish uri found]) (w.text_opened s uri text)
  · exact congrArg (fun found ↦ [publish uri found]) (w.text_changed s uri text)

/-- Each notice, of whatever document and text, is answered with one publication for its document.
There are no marks exactly if the text is a class. Otherwise there is one, which has the message of
the complaint and its span counted from zero. Both its ends are on lines of the text and not past
their ends, in order, and the same exactly if the text ended too early. -/
theorem receiveAll_answers (w : Workspace σ) (s : σ) (notices : List Notice) :
    List.Forall₂ (fun notice published ↦ ∃ p, published = [p] ∧ notice.Answers p) notices
      (receiveAll w s notices).1 := by
  induction notices generalizing s with
  | nil => exact .nil
  | cons notice notices ih =>
    exact .cons ⟨_, receive_eq w s notice, notice.answers_publish⟩ (ih (receive w s notice).2)

/-- Two documents, of which the first is changed: it is the new text that the answer is about. -/
theorem receiveAll_answers_recent :
    let notices : List Notice :=
      [.opened "A.jack" "a", .opened "B.jack" "b", .changed "A.jack" "c"]
    (receiveAll .recent [] notices).1 =
      [[publish "A.jack" "a"], [publish "B.jack" "b"], [publish "A.jack" "c"]] ∧
    List.Forall₂ (fun notice published ↦ ∃ p, published = [p] ∧ notice.Answers p) notices
      (receiveAll .recent [] notices).1 :=
  ⟨rfl, receiveAll_answers .recent [] _⟩

end Editor

end JackSyntax
