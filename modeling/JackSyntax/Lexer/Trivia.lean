import JackSyntax.Unicode.Blank

/-!
# Trivia

What stands between lexemes: blank characters and comments, in any order and number. Each function
here splits a text into the part that it is about, which may be empty, and the rest.

A line comment runs from `//` through the next line feed, a block comment from `/*` through the next
`*/` after it; either may also run to the end of the text.
-/

namespace JackSyntax

/-- The blank characters that the text starts with. -/
def splitBlank (text : List Char) : List Char × List Char :=
  (text.takeWhile isBlank, text.dropWhile isBlank)

/-- The text through the first line feed, or all of it. -/
def splitLine : List Char → List Char × List Char
  | [] => ([], [])
  | c :: rest =>
    if c = '\n' then ([c], rest)
    else
      let (line, rest) := splitLine rest
      (c :: line, rest)

/-- The text through the first `*/`, or all of it. -/
def splitBlock : List Char → List Char × List Char
  | [] => ([], [])
  | '*' :: '/' :: rest => (['*', '/'], rest)
  | c :: rest =>
    let (block, rest) := splitBlock rest
    (c :: block, rest)

/-- The comment that the text starts with. -/
def splitComment : List Char → List Char × List Char
  | '/' :: '/' :: rest =>
    let (line, rest) := splitLine rest
    ('/' :: '/' :: line, rest)
  | '/' :: '*' :: rest =>
    let (block, rest) := splitBlock rest
    ('/' :: '*' :: block, rest)
  | text => ([], text)

@[simp]
theorem splitBlank_append (text : List Char) :
    (splitBlank text).1 ++ (splitBlank text).2 = text := by
  simp [splitBlank]

@[simp]
theorem splitLine_append (text : List Char) :
    (splitLine text).1 ++ (splitLine text).2 = text := by
  fun_induction splitLine text <;> simp_all

@[simp]
theorem splitBlock_append (text : List Char) :
    (splitBlock text).1 ++ (splitBlock text).2 = text := by
  fun_induction splitBlock text <;> simp_all

@[simp]
theorem splitComment_append (text : List Char) :
    (splitComment text).1 ++ (splitComment text).2 = text := by
  unfold splitComment
  split <;> simp

/-- Blanks and comments, as far as they go: a run of blanks, the comment after it, and on from there
until neither is found. -/
def splitTrivia (text : List Char) : List Char × List Char :=
  let blank := splitBlank text
  let comment := splitComment blank.2
  if blank.1 = [] ∧ comment.1 = [] then ([], text)
  else
    let more := splitTrivia comment.2
    (blank.1 ++ comment.1 ++ more.1, more.2)
termination_by text.length
decreasing_by
  rename_i h
  -- Both splits keep all characters, and one of their first parts is not empty.
  have h₁ : blank.1.length + blank.2.length = text.length := by
    rw [← List.length_append, splitBlank_append]
  have h₂ : comment.1.length + comment.2.length = blank.2.length := by
    rw [← List.length_append, splitComment_append]
  have h₃ : blank.1.length ≠ 0 ∨ comment.1.length ≠ 0 := by
    simpa only [ne_eq, List.length_eq_zero_iff, ← Decidable.not_and_iff_not_or_not] using h
  show comment.2.length < text.length
  omega

/-- Splitting off trivia loses nothing. -/
@[simp]
theorem splitTrivia_append (text : List Char) :
    (splitTrivia text).1 ++ (splitTrivia text).2 = text := by
  fun_induction splitTrivia text with
  | case1 => rfl
  | case2 text blank comment _ more ih =>
    simp only [List.append_assoc, more, ih]
    simp [comment, blank]

/-! ### Lengths at an offset -/

/-- How many blank characters stand at the offset of the text. -/
def blankLength (text : String) (start : Nat) : Nat :=
  (splitBlank (text.toList.drop start)).1.length

/-- How many characters the comment at the offset of the text has, if one stands there. -/
def commentLength (text : String) (start : Nat) : Nat :=
  (splitComment (text.toList.drop start)).1.length

/-- How many characters of blanks and comments stand at the offset of the text. -/
def triviaLength (text : String) (start : Nat) : Nat :=
  (splitTrivia (text.toList.drop start)).1.length

end JackSyntax
