import Mathlib.Data.List.Basic
import Mathlib.Data.List.DropRight
import JackSyntax.Text.Lines

/-!
# Displayed lines and numbered lines

Lines are numbered by line feeds alone (`numberedLines`), but a displayed line ends at other line
breaks too. So the two readings have the same lines only as long as no numbered line has another
line break, except a carriage return before its line feed (`IsSimpleLine`). Then a displayed line,
without its end, is the numbered line without the carriage returns at its end.

## Main statements

* `displayLines_append_newline`: a simple line is displayed as one line.
* `SimpleThrough.shown_line`: what is shown of a line that simple lines come before.
-/

namespace JackSyntax

/-- The lines of a text as they are numbered: they are what line feeds separate. -/
def numberedLines (text : List Char) : List (List Char) :=
  text.splitOn '\n'

/-- A line without a line break, except for one carriage return at its end. -/
def IsSimpleLine (line : List Char) : Prop :=
  ∃ body, (line = body ∨ line = body ++ ['\r']) ∧ ∀ c ∈ body, c ∉ lineBreaks

/-- The lines of a text up to one, counted from zero, are displayed as they are numbered: those
before it are simple, and it has no line break but for carriage returns at its end. -/
structure SimpleThrough (text : List Char) (n : Nat) : Prop where
  before : ∀ line ∈ (numberedLines text).take n, IsSimpleLine line
  last : ∀ line ∈ (numberedLines text)[n]?, ∀ c ∈ dropTrailing '\r' line, c ∉ lineBreaks

variable {body line rest text : List Char} {c : Char}

/-! ### Numbered lines -/

theorem numberedLines_of_not_mem (h : '\n' ∉ text) : numberedLines text = [text] :=
  List.splitOn_eq_singleton h

theorem numberedLines_append (h : '\n' ∉ line) (rest : List Char) :
    numberedLines (line ++ '\n' :: rest) = line :: numberedLines rest :=
  List.splitOn_append_cons_self_of_not_mem h rest

/-- What holds of a last line, and is handed on from the lines after a line, holds of every text. -/
theorem lines_induction {motive : List Char → Prop} (last : ∀ line, '\n' ∉ line → motive line)
    (more : ∀ line rest, '\n' ∉ line → motive rest → motive (line ++ '\n' :: rest))
    (text : List Char) : motive text := by
  induction hlength : text.length using Nat.strongRecOn generalizing text with
  | ind n ih =>
    by_cases hmem : '\n' ∈ text
    · obtain ⟨line, rest, rfl, hline⟩ := List.eq_append_cons_of_mem hmem
      rw [List.length_append, List.length_cons] at hlength
      exact more line rest hline (ih _ (by omega) rest rfl)
    · exact last text hmem

/-- There is one line more than there are line feeds. -/
theorem length_numberedLines (text : List Char) :
    (numberedLines text).length = text.count '\n' + 1 := by
  induction text using lines_induction with
  | last line hline =>
    rw [numberedLines_of_not_mem hline, List.count_eq_zero_of_not_mem hline]
    rfl
  | more line rest hline ih =>
    rw [numberedLines_append hline, List.length_cons, ih, List.count_append,
      List.count_eq_zero_of_not_mem hline, List.count_cons_self, Nat.zero_add]

/-! ### Lines without their ends -/

/-- The carriage returns or line feeds at the end are dropped, as many as there are. -/
theorem dropTrailing_append_replicate (h : c ∉ body) (count : Nat) :
    dropTrailing c (body ++ List.replicate count c) = body := by
  have hbody : body.rdropWhile (· == c) = body :=
    List.rdropWhile_eq_self_iff.2 fun hne hlast ↦
      h (beq_iff_eq.1 hlast ▸ List.getLast_mem hne)
  induction count with
  | zero => rwa [List.replicate_zero, List.append_nil]
  | succ count ih =>
    rw [List.replicate_succ', ← List.append_assoc]
    exact (List.rdropWhile_concat_pos (· == c) _ c (beq_self_eq_true c)).trans ih

theorem dropTrailing_of_not_mem (h : c ∉ body) : dropTrailing c body = body := by
  have hnone := dropTrailing_append_replicate h 0
  rwa [List.replicate_zero, List.append_nil] at hnone

/-- A text is what is left of it and as many of the characters as were dropped. -/
theorem exists_dropTrailing (c : Char) (text : List Char) :
    ∃ count, text = dropTrailing c text ++ List.replicate count c := by
  refine ⟨(text.rtakeWhile (· == c)).length, ?_⟩
  have hall : text.rtakeWhile (· == c) =
      List.replicate (text.rtakeWhile (· == c)).length c :=
    List.eq_replicate_of_mem fun c' hc' ↦ by simpa using List.mem_rtakeWhile_imp hc'
  rw [← hall]
  exact List.rdropWhile_append_rtakeWhile.symm

/-! ### Displayed lines -/

/-- The ends that are not shown: a line feed, a carriage return or both, or nothing at the end of
the text. -/
def simpleEnds : List (List Char) :=
  [[], ['\n'], ['\r', '\n'], ['\r']]

theorem displayLines_cons (hc : c ∉ lineBreaks) (text : List Char) :
    displayLines (c :: text) =
      (c :: (displayLines text).headD []) :: (displayLines text).tail := by
  have hreturn : c ≠ '\r' := by
    rintro rfl
    exact hc (by decide)
  rw [displayLines, if_neg (by simpa using hc)]
  · cases displayLines text <;> rfl
  · exact fun _ hreturn' ↦ absurd hreturn' hreturn

theorem displayLines_of_body (hbody : ∀ c ∈ body, c ∉ lineBreaks) (hne : body ≠ []) :
    displayLines body = [body] := by
  induction body with
  | nil => exact absurd rfl hne
  | cons c body ih =>
    obtain ⟨hc, hbody⟩ := List.forall_mem_cons.1 hbody
    rw [displayLines_cons hc]
    cases body with
    | nil => rfl
    | cons c' body => rw [ih hbody (List.cons_ne_nil _ _)]; rfl

/-- Characters that are no line breaks join the line after them. -/
theorem displayLines_append (ending : List Char) (hbody : ∀ c ∈ body, c ∉ lineBreaks)
    (hending : displayLines (ending ++ rest) = ending :: displayLines rest) :
    displayLines (body ++ (ending ++ rest)) = (body ++ ending) :: displayLines rest := by
  induction body with
  | nil => exact hending
  | cons c body ih =>
    obtain ⟨hc, hbody⟩ := List.forall_mem_cons.1 hbody
    rw [List.cons_append, displayLines_cons hc, ih hbody]
    rfl

/-- A simple line is displayed as one line. -/
theorem displayLines_append_newline (h : IsSimpleLine line) (rest : List Char) :
    displayLines (line ++ '\n' :: rest) = (line ++ ['\n']) :: displayLines rest := by
  obtain ⟨body, rfl | rfl, hbody⟩ := h
  · exact displayLines_append ['\n'] hbody rfl
  · rw [List.append_assoc, List.append_assoc]
    exact displayLines_append ['\r', '\n'] hbody rfl

/-- A line is shown without its end. -/
theorem shownLine_append {ending : List Char} (hbody : ∀ c ∈ body, c ∉ lineBreaks)
    (hending : ending ∈ simpleEnds) : shownLine (body ++ ending) = body := by
  have hnewline : '\n' ∉ body := fun hmem ↦ hbody _ hmem (by decide)
  have hreturn : '\r' ∉ body := fun hmem ↦ hbody _ hmem (by decide)
  have hboth : '\n' ∉ body ++ ['\r'] := by simp [hnewline]
  have hone : dropTrailing '\r' (body ++ ['\r']) = body :=
    dropTrailing_append_replicate hreturn 1
  unfold shownLine
  simp only [simpleEnds, List.mem_cons, List.not_mem_nil, or_false] at hending
  rcases hending with rfl | rfl | rfl | rfl
  · rw [List.append_nil, dropTrailing_of_not_mem hnewline, dropTrailing_of_not_mem hreturn]
  · have hdrop : dropTrailing '\n' (body ++ ['\n']) = body :=
      dropTrailing_append_replicate hnewline 1
    rw [hdrop, dropTrailing_of_not_mem hreturn]
  · have hdrop : dropTrailing '\n' (body ++ ['\r'] ++ ['\n']) = body ++ ['\r'] :=
      dropTrailing_append_replicate hboth 1
    rw [List.append_assoc] at hdrop
    exact (congrArg _ hdrop).trans hone
  · rw [dropTrailing_of_not_mem hboth, hone]

/-- Carriage returns, and what comes after a line, begin with a simple end or are nothing. -/
theorem simpleEnd_cases (count : Nat) {tail : List Char}
    (htail : tail = [] ∨ ∃ rest, tail = '\n' :: rest) :
    List.replicate count '\r' ++ tail = [] ∨
      ∃ ending ∈ simpleEnds, ∃ rest, List.replicate count '\r' ++ tail = ending ++ rest ∧
        displayLines (ending ++ rest) = ending :: displayLines rest := by
  match count with
  | 0 =>
    rcases htail with rfl | ⟨rest, rfl⟩
    · exact .inl rfl
    · exact .inr ⟨['\n'], by simp [simpleEnds], rest, rfl, rfl⟩
  | 1 =>
    rcases htail with rfl | ⟨rest, rfl⟩
    · exact .inr ⟨['\r'], by simp [simpleEnds], [], rfl, rfl⟩
    · exact .inr ⟨['\r', '\n'], by simp [simpleEnds], rest, rfl, rfl⟩
  | count + 2 =>
    let rest := List.replicate (count + 1) '\r' ++ tail
    exact .inr ⟨['\r'], by simp [simpleEnds], rest, rfl, rfl⟩

/-- The first displayed line is shown as the first numbered line without the carriage returns at its
end, if it has no other line break. -/
theorem shown_first_line (hline : ∀ c ∈ dropTrailing '\r' line, c ∉ lineBreaks) {tail : List Char}
    (htail : tail = [] ∨ ∃ rest, tail = '\n' :: rest) :
    ((displayLines (line ++ tail))[0]?.map shownLine).getD [] = dropTrailing '\r' line := by
  obtain ⟨count, hsplit⟩ := exists_dropTrailing '\r' line
  generalize dropTrailing '\r' line = body at hline hsplit ⊢
  subst hsplit
  rw [List.append_assoc]
  rcases simpleEnd_cases count htail with hnone | ⟨ending, hmem, rest, hrest, hending⟩
  · have hend : [] ∈ simpleEnds := by simp [simpleEnds]
    have hshown := shownLine_append hline hend
    rw [List.append_nil] at hshown
    rw [hnone, List.append_nil]
    by_cases hne : body = []
    · rw [hne]
      rfl
    · rw [displayLines_of_body hline hne]
      exact hshown
  · rw [hrest, displayLines_append ending hline hending]
    exact shownLine_append hline hmem

/-- So it is with any line that simple lines come before. -/
theorem SimpleThrough.shown_line {n : Nat} (h : SimpleThrough text n)
    (hline : (numberedLines text)[n]? = some line) :
    ((displayLines text)[n]?.map shownLine).getD [] = dropTrailing '\r' line := by
  obtain ⟨hbefore, hlast⟩ := h
  replace hlast := hlast line hline
  induction text using lines_induction generalizing n with
  | last text htext =>
    rw [numberedLines_of_not_mem htext] at hline
    cases n with
    | zero =>
      obtain rfl := Option.some.inj hline
      have hshown := shown_first_line hlast (.inl rfl)
      rwa [List.append_nil] at hshown
    | succ n => simp at hline
  | more first rest hfirst ih =>
    rw [numberedLines_append hfirst] at hline hbefore
    cases n with
    | zero =>
      obtain rfl := Option.some.inj hline
      exact shown_first_line hlast (.inr ⟨rest, rfl⟩)
    | succ n =>
      obtain ⟨hsimple, hbefore⟩ := List.forall_mem_cons.1 hbefore
      rw [displayLines_append_newline hsimple]
      exact ih hline hbefore

end JackSyntax
