import JackSyntax.Analysis
import JackSyntax.Diagnostic.Snippet
import JackSyntax.Proofs.Diagnostic.DisplayedLines
import JackSyntax.Proofs.Lexer.Places
import JackSyntax.Proofs.Parser.ViablePrefix

/-!
# The line that a complaint shows

A complaint is about a place of its source, so there is a line with the number that the complaint
gives. What it shows is that line, unless a line break other than a line feed comes before: such a
break ends a displayed line, but not a numbered one.

## Main statements

* `Source.isAt_of_complaint`: a complaint is about a place of its source.
* `Source.complaint_shows_line`: the line shown is the one with the number given.
* `complaint_after_form_feed`: a complaint that shows another line.
-/

namespace JackSyntax

variable {source : Source} {limits : Limits} {d : Diagnostic}

/-! ### The place of a complaint -/

/-- What a tokenizer of a text reads to the end, and the error it meets, begin at places of the
text. -/
theorem Tokenizer.IsOn.remaining_isAt {t : Tokenizer} {text : String} (h : t.IsOn text) :
    (∀ token ∈ t.remaining.tokens, ∃ offset, token.span.start.IsAt text.toList offset) ∧
      ∀ e ∈ t.remaining.failure, ∃ offset, e.position.IsAt text.toList offset := by
  induction t using remaining.induct with
  | case1 t token t' hnext ih =>
    have hpasses := passes_perform h .next
    simp only [perform, hnext] at hpasses
    obtain ⟨htokens, hfailure⟩ := ih hpasses.isOn
    rw [remaining_of_token hnext]
    refine ⟨List.forall_mem_cons.2 ⟨?_, htokens⟩, hfailure⟩
    exact hpasses.places _ List.mem_cons_self _ List.mem_cons_self
  | case2 t t' hnext =>
    rw [remaining_of_none hnext]
    exact ⟨List.forall_mem_nil _, by simp⟩
  | case3 t e t' hnext =>
    have hpasses := passes_perform h .next
    simp only [perform, hnext] at hpasses
    rw [remaining_of_error hnext]
    refine ⟨List.forall_mem_nil _, fun e' he' ↦ ?_⟩
    obtain rfl := Option.some.inj he'
    exact hpasses.places _ List.mem_cons_self _ List.mem_cons_self

/-- The end of a text is a place of it. -/
theorem isAt_endPosition (text : String) :
    (endPosition text).IsAt text.toList text.toList.length := by
  have hend := isAt_advance text.toList []
  rwa [List.append_nil, position_advance_eq_endPosition] at hend

/-- A complaint is about a place of its source. -/
theorem Source.isAt_of_complaint
    (h : source.tokens limits = .error d ∨ source.events limits = .error d) :
    d.source = source ∧ ∃ offset, d.span.start.IsAt source.text.toList offset := by
  obtain ⟨htokens, hfailure⟩ := (Tokenizer.isOn_ofText source.text limits).remaining_isAt
  rcases h with h | h
  · simp only [tokens] at h
    split at h
    · simp at h
    · rename_i e he
      obtain rfl := Except.error.inj h
      exact ⟨rfl, hfailure e he⟩
  · rw [events] at h
    split at h
    · simp at h
    · rename_i failure s hrun
      obtain rfl := Except.error.inj h
      cases Session.run_blames hrun (Fit.start _) with
      | lexical he _ => exact ⟨rfl, hfailure _ he⟩
      | @token e token i htoken hfound _ _ =>
        refine ⟨rfl, ?_⟩
        show ∃ offset, e.found.span.start.IsAt source.text.toList offset
        rw [hfound]
        exact htokens token (List.mem_of_getElem? htoken)
      | @endOfInput e _ hfound _ _ =>
        refine ⟨rfl, source.text.toList.length, ?_⟩
        show e.found.span.start.IsAt source.text.toList _
        rw [hfound]
        exact isAt_endPosition source.text

/-- A place of a text is on one of its lines. -/
theorem Position.IsAt.exists_line {p : Position} {text : List Char} {offset : Nat}
    (h : p.IsAt text offset) : ∃ n line, p.line - 1 = Int.ofNat n ∧
      (numberedLines text)[n]? = some line := by
  have hlt : (text.take offset).count '\n' < (numberedLines text).length := by
    have hle := (List.take_sublist offset text).count_le '\n'
    rw [length_numberedLines]
    omega
  refine ⟨_, _, ?_, List.getElem?_eq_getElem hlt⟩
  rw [h.line_eq]
  show 1 + ((text.take offset).count '\n' : Int) - 1 = ((text.take offset).count '\n' : Int)
  omega

/-! ### The text of a complaint -/

namespace Diagnostic

/-- The last line: carets behind a gutter that is as wide as the number of the line above. -/
def lastLine (d : Diagnostic) : String :=
  repeated ' ' ((toString d.span.start.line).length + 1) ++ "| " ++
    (repeated ' ' (d.span.start.column - 1).toNat ++ repeated '^' d.caretCount)

/-- The last two lines are the line shown, behind its number, and the carets. -/
theorem exists_text_eq_lines (d : Diagnostic) : ∃ above, d.text = above ++ "\n" ++
    (toString d.span.start.line ++ " | " ++ String.ofList d.shownText) ++ "\n" ++ d.lastLine := by
  let gutter := repeated ' ' ((toString d.span.start.line).length + 1)
  let place := d.source.name ++ ":" ++ toString d.span.start.line ++ ":" ++
    toString d.span.start.column
  let above := "error: " ++ d.message ++ "\n" ++ gutter ++ "--> " ++ place ++ "\n" ++ gutter ++ "|"
  refine ⟨above, ?_⟩
  have hbar : "|\n" = "|" ++ "\n" := by decide +kernel
  unfold text format lastLine
  dsimp only [above, place, gutter]
  rw [hbar]
  simp only [String.append_assoc]

/-- The line shown is the second one from the bottom, behind its number. -/
theorem exists_text_eq (d : Diagnostic) : ∃ above below, d.text = above ++ "\n" ++
    (toString d.span.start.line ++ " | " ++ String.ofList d.shownText) ++ "\n" ++ below ∧
      '\n' ∉ below.toList := by
  obtain ⟨above, htext⟩ := d.exists_text_eq_lines
  exact ⟨above, d.lastLine, htext, by simp [lastLine, repeated]⟩

end Diagnostic

/-- The line that a complaint shows. -/
theorem Source.complaint_shows_line
    (h : source.tokens limits = .error d ∨ source.events limits = .error d)
    (hsimple : SimpleThrough source.text.toList (d.span.start.line - 1).toNat) :
    ∃ line above below,
      (numberedLines source.text.toList)[(d.span.start.line - 1).toNat]? = some line ∧
      d.text = above ++ "\n" ++ (toString d.span.start.line ++ " | " ++
        String.ofList (dropTrailing '\r' line)) ++ "\n" ++ below ∧
      '\n' ∉ below.toList := by
  obtain ⟨rfl, offset, hplace⟩ := isAt_of_complaint h
  obtain ⟨n, line, hn, hline⟩ := hplace.exists_line
  obtain ⟨above, below, htext, hbelow⟩ := d.exists_text_eq
  have hshown : d.shownText = dropTrailing '\r' line := by
    rw [Diagnostic.shownText, hn]
    rw [hn] at hsimple
    exact hsimple.shown_line hline
  rw [hshown] at htext
  refine ⟨line, above, below, ?_, htext, hbelow⟩
  rw [hn]
  exact hline

/-- A comment before the line, which ends in a carriage return and a line feed, and a carriage
return after the character complained of. -/
theorem complaint_shows_line_two :
    let source : Source := ⟨"input.jack", "x //\r\n  ?\r"⟩
    let d : Diagnostic :=
      ⟨"unrecognized character '?'", .singleton ⟨2, 3, 8⟩, source, .lexical⟩
    source.tokens ⟨9, 9⟩ = .error d ∧ ∃ line above below,
      (numberedLines source.text.toList)[1]? = some line ∧
      d.text = above ++ "\n" ++ (toString d.span.start.line ++ " | " ++
        String.ofList (dropTrailing '\r' line)) ++ "\n" ++ below ∧
      '\n' ∉ below.toList := by
  intro source d
  have herror : source.tokens ⟨9, 9⟩ = .error d := by decide +kernel
  have hlines : numberedLines source.text.toList = ["x //\r".toList, "  ?\r".toList] := by
    decide +kernel
  have hbody : "x //".toList.all (· ∉ lineBreaks) = true := by decide +kernel
  have hlast : (dropTrailing '\r' "  ?\r".toList).all (· ∉ lineBreaks) = true := by decide +kernel
  simp only [List.all_eq_true, decide_eq_true_eq] at hbody hlast
  have hsimple : SimpleThrough source.text.toList 1 := by
    constructor
    · rw [hlines]
      exact List.forall_mem_singleton.2 ⟨"x //".toList, .inr rfl, hbody⟩
    · rw [hlines]
      rintro line hline
      obtain rfl := Option.some.inj hline
      exact hlast
  exact ⟨herror, source.complaint_shows_line (.inl herror) hsimple⟩

/-- A form feed before the line ends a displayed line, so that nothing is shown of the line that the
complaint is about. -/
theorem complaint_after_form_feed :
    let source : Source := ⟨"input.jack", "\x0c\n?"⟩
    let d : Diagnostic :=
      ⟨"unrecognized character '?'", .singleton ⟨2, 1, 2⟩, source, .lexical⟩
    source.tokens ⟨9, 9⟩ = .error d ∧
    (numberedLines source.text.toList)[1]? = some ['?'] ∧ dropTrailing '\r' ['?'] = ['?'] ∧
    d.text = "error: unrecognized character '?'\n  --> input.jack:2:1\n  |\n2 | \n  | ^" := by
  decide +kernel

end JackSyntax
