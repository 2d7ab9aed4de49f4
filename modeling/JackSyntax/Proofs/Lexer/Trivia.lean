import JackSyntax.Lexer.Trivia

/-!
# What trivia is

Trivia described without a scanner: a run of units, each a blank character or a comment. A comment
that nothing closes runs to the end of the text, so a unit is a unit in front of a rest
(`TriviaUnit`), and so is a run of them (`Trivia`).

## Main statements

* `trivia_splitTrivia`: what the scanner passes over is trivia.
* `startsTrivia_splitTrivia`: and no more of it follows.
* `splitTrivia_of_trivia`: so whatever trivia there is in front of what is none is passed over.
* `triviaLength_exact`: from any place of a text there is one place where the trivia ends, which is
  where the scanner stops.
-/

namespace JackSyntax

/-- A blank character or a comment, in front of the rest of a text. -/
inductive TriviaUnit : List Char → List Char → Prop
  | blank {c : Char} {rest : List Char} (h : isBlank c = true) : TriviaUnit [c] rest
  /-- From `//` through the first line feed. -/
  | line {body rest : List Char} (h : '\n' ∉ body) :
    TriviaUnit ('/' :: '/' :: (body ++ ['\n'])) rest
  /-- From `//` to the end of the text, where no line feed follows. -/
  | lastLine {body : List Char} (h : '\n' ∉ body) : TriviaUnit ('/' :: '/' :: body) []
  /-- From `/*` through the first `*/` after it. -/
  | block {body rest : List Char} (h : ¬ ['*', '/'] <:+: body) :
    TriviaUnit ('/' :: '*' :: (body ++ ['*', '/'])) rest
  /-- From `/*` to the end of the text, where no `*/` follows. -/
  | lastBlock {body : List Char} (h : ¬ ['*', '/'] <:+: body) : TriviaUnit ('/' :: '*' :: body) []

/-- Units of trivia one after the other, in front of the rest of a text. -/
inductive Trivia : List Char → List Char → Prop
  | nil {rest : List Char} : Trivia [] rest
  | cons {unit gap rest : List Char} (hunit : TriviaUnit unit (gap ++ rest))
    (hgap : Trivia gap rest) : Trivia (unit ++ gap) rest

/-- Whether the text starts with a blank character or a comment. -/
def startsTrivia : List Char → Bool
  | '/' :: '/' :: _ | '/' :: '*' :: _ => true
  | c :: _ => isBlank c
  | [] => false

/-- Trivia one piece after the other is trivia. -/
theorem Trivia.append {g₁ g₂ rest : List Char} (h₁ : Trivia g₁ (g₂ ++ rest)) (h₂ : Trivia g₂ rest) :
    Trivia (g₁ ++ g₂) rest := by
  generalize hmiddle : g₂ ++ rest = middle at h₁
  induction h₁ with
  | nil => exact h₂
  | cons hunit _ ih =>
    subst hmiddle
    rw [List.append_assoc]
    refine .cons ?_ (ih rfl)
    rwa [List.append_assoc]

/-- Characters that are all blank are trivia. -/
theorem trivia_of_blank {blank rest : List Char} (h : ∀ c ∈ blank, isBlank c = true) :
    Trivia blank rest := by
  induction blank with
  | nil => exact .nil
  | cons c blank ih =>
    have hunit : TriviaUnit [c] (blank ++ rest) := .blank (h c (by simp))
    exact .cons hunit (ih fun c' hc' ↦ h c' (by simp [hc']))

/-! ### Splits as units -/

/-- A line is read through the first line feed, or to the end where there is none. -/
theorem splitLine_cases (text : List Char) :
    (∃ body, '\n' ∉ body ∧ (splitLine text).1 = body ++ ['\n']) ∨
      '\n' ∉ (splitLine text).1 ∧ (splitLine text).2 = [] := by
  induction text with
  | nil => exact .inr ⟨by simp [splitLine], rfl⟩
  | cons c text ih =>
    rw [splitLine]
    split
    · rename_i hc
      exact .inl ⟨[], by simp, by simp [hc]⟩
    · rename_i hc
      rcases ih with ⟨body, hbody, hline⟩ | ⟨hline, hrest⟩
      · refine .inl ⟨c :: body, ?_, by simp [hline]⟩
        simpa [hbody] using Ne.symm hc
      · refine .inr ⟨?_, hrest⟩
        simpa [hline] using Ne.symm hc

/-- A character in front of a body without `*/` makes none unless the two begin one. -/
theorem not_closes_cons {c : Char} {body : List Char} (hbody : ¬ ['*', '/'] <:+: body)
    (hhead : c = '*' → body.head? ≠ some '/') : ¬ ['*', '/'] <:+: c :: body := by
  intro h
  rcases List.infix_cons_iff.1 h with hprefix | hinfix
  · obtain ⟨hc, hprefix⟩ := List.cons_prefix_cons.1 hprefix
    obtain ⟨more, hmore⟩ := hprefix
    exact hhead hc.symm (by rw [← hmore]; rfl)
  · exact hbody hinfix

/-- A block is read through the first `*/`, or to the end where there is none. -/
theorem splitBlock_cases (text : List Char) :
    (∃ body, ¬ ['*', '/'] <:+: body ∧ (splitBlock text).1 = body ++ ['*', '/']) ∨
      ¬ ['*', '/'] <:+: (splitBlock text).1 ∧ (splitBlock text).2 = [] := by
  fun_induction splitBlock text with
  | case1 => exact .inr ⟨by simp, rfl⟩
  | case2 rest => exact .inl ⟨[], by simp, rfl⟩
  | case3 c rest hopen block rest' hsplit ih =>
    have hkeep := splitBlock_append rest
    simp only [hsplit] at ih hkeep
    -- The block begins as the text after the character does, which is not with a slash.
    have hslash : ∀ more, c = '*' → block ≠ '/' :: more := by
      intro more hc hblock
      exact hopen (more ++ rest') hc (by rw [← hkeep, hblock]; rfl)
    rcases ih with ⟨body, hbody, hblock⟩ | ⟨hblock, hrest⟩
    · refine .inl ⟨c :: body, not_closes_cons hbody fun hc hhead ↦ ?_, by simp [hblock]⟩
      obtain ⟨more, rfl⟩ := List.head?_eq_some_iff.1 hhead
      exact hslash (more ++ ['*', '/']) hc hblock
    · refine .inr ⟨not_closes_cons hblock fun hc hhead ↦ ?_, hrest⟩
      obtain ⟨more, hmore⟩ := List.head?_eq_some_iff.1 hhead
      exact hslash more hc hmore

/-- What the scanner takes for a comment is one, unless it takes nothing. -/
theorem splitComment_unit {text : List Char} (h : (splitComment text).1 ≠ []) :
    TriviaUnit (splitComment text).1 (splitComment text).2 := by
  unfold splitComment at h ⊢
  split at h
  · rename_i rest
    rcases splitLine_cases rest with ⟨body, hbody, hline⟩ | ⟨hline, hrest⟩
    · simp only [hline]
      exact .line hbody
    · simp only [hrest]
      exact .lastLine hline
  · rename_i rest
    rcases splitBlock_cases rest with ⟨body, hbody, hblock⟩ | ⟨hblock, hrest⟩
    · simp only [hblock]
      exact .block hbody
    · simp only [hrest]
      exact .lastBlock hblock
  · exact absurd rfl h

/-! ### The scanner -/

/-- Nothing is passed over exactly where no trivia starts. -/
theorem split_nil_iff (text : List Char) :
    (splitBlank text).1 = [] ∧ (splitComment (splitBlank text).2).1 = [] ↔
      startsTrivia text = false := by
  cases text with
  | nil => simp [splitBlank, splitComment, startsTrivia]
  | cons c text =>
    by_cases hc : isBlank c = true
    · have hblank : (splitBlank (c :: text)).1 ≠ [] := by simp [splitBlank, hc]
      refine iff_of_false (fun h ↦ hblank h.1) ?_
      unfold startsTrivia
      split <;> simp_all
    · have hblank : splitBlank (c :: text) = ([], c :: text) := by simp [splitBlank, hc]
      rw [hblank]
      unfold splitComment startsTrivia
      split <;> split <;> simp_all

/-- What the scanner passes over is trivia. -/
theorem trivia_splitTrivia (text : List Char) :
    Trivia (splitTrivia text).1 (splitTrivia text).2 := by
  fun_induction splitTrivia text with
  | case1 => exact .nil
  | case2 text blank comment hsome more ih =>
    have hblank : ∀ c ∈ blank.1, isBlank c = true := List.all_eq_true.1 List.all_takeWhile
    have hmore : more.1 ++ more.2 = comment.2 := splitTrivia_append _
    have hcomment : Trivia (comment.1 ++ more.1) more.2 := by
      by_cases h : comment.1 = []
      · rw [h, List.nil_append]
        exact ih
      · refine .cons ?_ ih
        rw [hmore]
        exact splitComment_unit h
    rw [List.append_assoc]
    exact (trivia_of_blank hblank).append hcomment

/-- No more trivia follows what the scanner passes over. -/
theorem startsTrivia_splitTrivia (text : List Char) :
    startsTrivia (splitTrivia text).2 = false := by
  fun_induction splitTrivia text with
  | case1 text blank comment hnone => exact (split_nil_iff text).1 hnone
  | case2 text blank comment hsome more ih => exact ih

/-- Where no trivia starts, nothing is passed over. -/
theorem splitTrivia_of_not_startsTrivia {text : List Char} (h : startsTrivia text = false) :
    splitTrivia text = ([], text) := by
  rw [splitTrivia]
  exact if_pos ((split_nil_iff text).2 h)

/-! ### Trivia is what the scanner passes over -/

theorem splitLine_of_not_mem {body : List Char} (h : '\n' ∉ body) (rest : List Char) :
    splitLine (body ++ '\n' :: rest) = (body ++ ['\n'], rest) := by
  induction body with
  | nil => rfl
  | cons c body ih =>
    have hc : c ≠ '\n' := fun heq ↦ h (heq ▸ List.mem_cons_self)
    have hbody : '\n' ∉ body := fun hmem ↦ h (List.mem_cons_of_mem c hmem)
    rw [List.cons_append, splitLine, if_neg hc, ih hbody]
    rfl

theorem splitLine_of_last {body : List Char} (h : '\n' ∉ body) : splitLine body = (body, []) := by
  induction body with
  | nil => rfl
  | cons c body ih =>
    have hc : c ≠ '\n' := fun heq ↦ h (heq ▸ List.mem_cons_self)
    have hbody : '\n' ∉ body := fun hmem ↦ h (List.mem_cons_of_mem c hmem)
    rw [splitLine, if_neg hc, ih hbody]

/-- A character that does not begin `*/` belongs to the block. -/
theorem splitBlock_cons {c : Char} {text : List Char} (h : ¬ ['*', '/'] <+: c :: text) :
    splitBlock (c :: text) = (c :: (splitBlock text).1, (splitBlock text).2) := by
  rw [splitBlock]
  rintro rest rfl rfl
  exact h ⟨rest, rfl⟩

theorem splitBlock_of_not_infix {body : List Char} (h : ¬ ['*', '/'] <:+: body)
    (rest : List Char) :
    splitBlock (body ++ '*' :: '/' :: rest) = (body ++ ['*', '/'], rest) := by
  induction body with
  | nil => rfl
  | cons c body ih =>
    have hbody : ¬ ['*', '/'] <:+: body := fun hin ↦ h (List.infix_cons hin)
    have hopen : ¬ ['*', '/'] <+: c :: (body ++ '*' :: '/' :: rest) := by
      intro hprefix
      obtain ⟨rfl, hslash⟩ := List.cons_prefix_cons.1 hprefix
      cases body with
      | nil => simp at hslash
      | cons c' body =>
        obtain ⟨rfl, -⟩ := List.cons_prefix_cons.1 hslash
        exact h ⟨[], body, rfl⟩
    rw [List.cons_append, splitBlock_cons hopen, ih hbody]
    rfl

theorem splitBlock_of_last {body : List Char} (h : ¬ ['*', '/'] <:+: body) :
    splitBlock body = (body, []) := by
  induction body with
  | nil => rfl
  | cons c body ih =>
    have hbody : ¬ ['*', '/'] <:+: body := fun hin ↦ h (List.infix_cons hin)
    have hopen : ¬ ['*', '/'] <+: c :: body := fun hprefix ↦ h hprefix.isInfix
    rw [splitBlock_cons hopen, ih hbody]

/-- What is passed over: blanks, a comment and what comes after it, each of which may be empty. -/
theorem splitTrivia_eq (text : List Char) :
    splitTrivia text =
      ((splitBlank text).1 ++ (splitComment (splitBlank text).2).1 ++
          (splitTrivia (splitComment (splitBlank text).2).2).1,
        (splitTrivia (splitComment (splitBlank text).2).2).2) := by
  by_cases hnone : (splitBlank text).1 = [] ∧ (splitComment (splitBlank text).2).1 = []
  · have hnil : splitTrivia text = ([], text) := by rw [splitTrivia, if_pos hnone]
    have hblank := splitBlank_append text
    have hcomment := splitComment_append (splitBlank text).2
    rw [hnone.1, List.nil_append] at hblank
    rw [hnone.2, List.nil_append, hblank] at hcomment
    rw [hnone.1, hblank, hcomment, hnil]
    rw [hblank] at hnone
    rw [hnone.2]
    rfl
  · rw [splitTrivia, if_neg hnone]

/-- A blank character in front is passed over with what comes after it. -/
theorem splitTrivia_blank {c : Char} (hc : isBlank c = true) (text : List Char) :
    splitTrivia (c :: text) = (c :: (splitTrivia text).1, (splitTrivia text).2) := by
  have hblank : splitBlank (c :: text) = (c :: (splitBlank text).1, (splitBlank text).2) := by
    simp [splitBlank, hc]
  rw [splitTrivia_eq (c :: text), hblank, splitTrivia_eq text]
  rfl

/-- So is a comment. -/
theorem splitTrivia_comment {unit text : List Char}
    (hblank : splitBlank (unit ++ text) = ([], unit ++ text))
    (hcomment : splitComment (unit ++ text) = (unit, text)) :
    splitTrivia (unit ++ text) = (unit ++ (splitTrivia text).1, (splitTrivia text).2) := by
  rw [splitTrivia_eq (unit ++ text), hblank, hcomment]
  rfl

/-- A unit in front is passed over with what comes after it. -/
theorem splitTrivia_unit {unit rest : List Char} (h : TriviaUnit unit rest) :
    splitTrivia (unit ++ rest) = (unit ++ (splitTrivia rest).1, (splitTrivia rest).2) := by
  have hslash : ∀ text, splitBlank ('/' :: text) = ([], '/' :: text) := fun _ ↦ rfl
  cases h with
  | blank h => exact splitTrivia_blank h rest
  | line h =>
    refine splitTrivia_comment (hslash _) ?_
    simp only [List.cons_append, List.append_assoc, List.nil_append, splitComment,
      splitLine_of_not_mem h]
  | lastLine h =>
    refine splitTrivia_comment (hslash _) ?_
    simp only [List.append_nil, splitComment, splitLine_of_last h]
  | block h =>
    refine splitTrivia_comment (hslash _) ?_
    simp only [List.cons_append, List.append_assoc, List.nil_append, splitComment,
      splitBlock_of_not_infix h]
  | lastBlock h =>
    refine splitTrivia_comment (hslash _) ?_
    simp only [List.append_nil, splitComment, splitBlock_of_last h]

/-- Trivia in front is passed over with what comes after it. -/
theorem splitTrivia_append_of_trivia {gap rest : List Char} (h : Trivia gap rest) :
    splitTrivia (gap ++ rest) = (gap ++ (splitTrivia rest).1, (splitTrivia rest).2) := by
  induction h with
  | nil => rfl
  | cons hunit _ ih => rw [List.append_assoc, splitTrivia_unit hunit, ih, List.append_assoc]

/-- The scanner passes over the trivia in front of what is none. -/
theorem splitTrivia_of_trivia {gap rest : List Char} (hgap : Trivia gap rest)
    (hstarts : startsTrivia rest = false) : splitTrivia (gap ++ rest) = (gap, rest) := by
  rw [splitTrivia_append_of_trivia hgap, splitTrivia_of_not_startsTrivia hstarts, List.append_nil]

/-! ### Trivia between two places -/

/-- No trivia starts where there is no blank character and neither `//` nor `/*`. -/
theorem startsTrivia_eq_false_iff {text : List Char} :
    startsTrivia text = false ↔ (∀ c ∈ text.head?, isBlank c = false) ∧
      ¬ ['/', '/'] <+: text ∧ ¬ ['/', '*'] <+: text := by
  have hslash : isBlank '/' = false := by decide
  unfold startsTrivia
  split
  · simp
  · simp
  · rename_i c rest hline hblock
    simp only [List.head?_cons, Option.mem_some_iff, forall_eq', List.cons_prefix_cons]
    refine ⟨fun hblank ↦ ⟨hblank, ?_, ?_⟩, fun h ↦ h.1⟩
    · rintro ⟨rfl, more, rfl⟩
      exact hline more rfl rfl
    · rintro ⟨rfl, more, rfl⟩
      exact hblock more rfl rfl
  · simp

/-- All that stands between the two places of the text is trivia, and no more of it follows. -/
structure IsGap (text : String) (start stop : Nat) : Prop where
  start_le : start ≤ stop
  stop_le : stop ≤ text.toList.length
  /-- Blank characters and comments, one after the other. -/
  trivia : Trivia ((text.toList.drop start).take (stop - start)) (text.toList.drop stop)
  blank : ∀ c ∈ (text.toList.drop stop).head?, isBlank c = false
  line : ¬ ['/', '/'] <+: text.toList.drop stop
  block : ¬ ['/', '*'] <+: text.toList.drop stop

theorem IsGap.startsTrivia {text : String} {start stop : Nat} (h : IsGap text start stop) :
    startsTrivia (text.toList.drop stop) = false :=
  startsTrivia_eq_false_iff.2 ⟨h.blank, h.line, h.block⟩

/-- The text from the offset on is the trivia passed over and what is left. -/
theorem exists_drop_eq_append (text : String) (start : Nat) :
    ∃ gap rest, text.toList.drop start = gap ++ rest ∧ gap.length = triviaLength text start ∧
      Trivia gap rest ∧ startsTrivia rest = false :=
  ⟨_, _, (splitTrivia_append _).symm, rfl, trivia_splitTrivia _, startsTrivia_splitTrivia _⟩

/-- The scanner stops at the end of a gap. -/
theorem isGap_triviaLength {text : String} {start : Nat} (h : start ≤ text.toList.length) :
    IsGap text start (start + triviaLength text start) := by
  obtain ⟨gap, rest, htext, hlength, htrivia, hstarts⟩ := exists_drop_eq_append text start
  have hrest : text.toList.drop (start + triviaLength text start) = rest := by
    rw [← List.drop_drop, htext, ← hlength, List.drop_left]
  have htake : (text.toList.drop start).take (triviaLength text start) = gap := by
    rw [htext, ← hlength, List.take_left]
  have hsum : text.toList.length - start = gap.length + rest.length := by
    rw [← List.length_drop, htext, List.length_append]
  obtain ⟨hblank, hline, hblock⟩ := startsTrivia_eq_false_iff.1 hstarts
  exact {
    start_le := Nat.le_add_right _ _
    stop_le := by omega
    trivia := by rwa [Nat.add_sub_cancel_left, htake, hrest]
    blank := by rwa [hrest]
    line := by rwa [hrest]
    block := by rwa [hrest] }

/-- There is no other gap that starts there. -/
theorem IsGap.stop_eq {text : String} {start stop : Nat} (h : IsGap text start stop) :
    stop = start + triviaLength text start := by
  have hcut : (text.toList.drop start).take (stop - start) ++ text.toList.drop stop =
      text.toList.drop start := by
    have hdrop : text.toList.drop stop = (text.toList.drop start).drop (stop - start) := by
      rw [List.drop_drop, Nat.add_sub_cancel' h.start_le]
    rw [hdrop, List.take_append_drop]
  have hsplit := splitTrivia_of_trivia h.trivia h.startsTrivia
  have hlength : triviaLength text start = stop - start := by
    rw [triviaLength, ← hcut, hsplit, List.length_take, List.length_drop]
    have := h.stop_le
    omega
  rw [hlength, Nat.add_sub_cancel' h.start_le]

/-- From any place of a text the scanner goes to the end of the trivia there, which is one place
only: what is passed over is blanks and comments, and what follows starts with neither. Nothing more
is passed over from there. Beyond the end of the text nothing is found at all. -/
theorem triviaLength_exact (text : String) (start : Nat) :
    (start ≤ text.toList.length →
      (∀ stop, IsGap text start stop ↔ stop = start + triviaLength text start) ∧
      triviaLength text (start + triviaLength text start) = 0) ∧
    (text.toList.length < start →
      blankLength text start = 0 ∧ commentLength text start = 0 ∧ triviaLength text start = 0) := by
  constructor
  · intro hstart
    refine ⟨fun stop ↦ ⟨IsGap.stop_eq, ?_⟩, ?_⟩
    · rintro rfl
      exact isGap_triviaLength hstart
    · have hstarts := (isGap_triviaLength hstart).startsTrivia
      rw [triviaLength, splitTrivia_of_not_startsTrivia hstarts, List.length_nil]
  · intro hstart
    have hnil : text.toList.drop start = [] := List.drop_eq_nil_of_le (Nat.le_of_lt hstart)
    rw [blankLength, commentLength, triviaLength, hnil]
    exact ⟨rfl, rfl, congrArg (·.1.length) (splitTrivia_of_not_startsTrivia rfl)⟩

/-- A slash right after `/*` closes nothing, `**/` does, `//*` starts a line, and a comment that
nothing closes is the last. -/
theorem triviaLength_exact_overlaps :
    triviaLength "x /*/ **/ //*/\n\t/*" 1 = 17 ∧ triviaLength "x /*/ **/ //*/\n\t/*" 18 = 0 := by
  obtain ⟨hgap, hagain⟩ := (triviaLength_exact "x /*/ **/ //*/\n\t/*" 1).1 (by decide)
  have hbody : ¬ ['*', '/'] <:+: "/ *".toList := by decide
  have hblock : TriviaUnit "/*/ **/".toList " //*/\n\t/*".toList := .block hbody
  have hbody : '\n' ∉ "*/".toList := by decide
  have hline : TriviaUnit "//*/\n".toList "\t/*".toList := .line hbody
  have hbody : ¬ ['*', '/'] <:+: ([] : List Char) := by decide
  have hlast : Trivia "/*".toList [] := .cons (.lastBlock hbody) .nil
  have htrivia : Trivia " /*/ **/ //*/\n\t/*".toList [] :=
    .cons (.blank rfl) (.cons hblock (.cons (.blank rfl) (.cons hline (.cons (.blank rfl) hlast))))
  have hstop := (hgap 18).1 ⟨by decide, by decide, htrivia, by simp, by decide, by decide⟩
  rw [← hstop] at hagain
  exact ⟨by omega, hagain⟩

end JackSyntax
