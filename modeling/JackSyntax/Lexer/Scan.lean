import JackSyntax.Lexer.LexError
import JackSyntax.Token.Basic
import JackSyntax.Unicode.Letter
import JackSyntax.Unicode.Numeric

/-!
# Scanning one lexeme

What a text starts with: a symbol, an integer constant, a string constant or a word. Numbers and
words are taken as long as they go. A scan divides its text, so nothing is lost: see
`Scan.Divides` and `scanLexeme_divides`.
-/

namespace JackSyntax

/-- Whether the character may start a name. -/
def isNameStart (c : Char) : Bool :=
  c == '_' || isLetter c

/-- Whether the character may continue a name. -/
def isNamePart (c : Char) : Bool :=
  c == '_' || isLetter c || isNumeric c

/-- A lexeme, the characters it was read from and those after them. -/
structure Scan where
  /-- What was read. -/
  lexeme : Lexeme
  /-- The characters read. -/
  taken : List Char
  /-- The characters not yet read. -/
  rest : List Char

/-- The number that decimal digits write. -/
def decimalValue (digits : List Char) : Nat :=
  digits.foldl (fun n c ↦ 10 * n + (c.toNat - '0'.toNat)) 0

/-- The digits that count: without zeros at the front, but never none. -/
def significantDigits (digits : List Char) : List Char :=
  match digits.dropWhile (· == '0') with
  | [] => ['0']
  | significant => significant

/-- The integer constant at the start of the text. A constant that has more digits than the maximum
is refused by their number alone, before its value is worked out. Numbers of any length are compared
here; `convertInteger` is the reading where only integers of so many digits are converted, and the
two agree unless the maximum is about as long as such an integer may be. -/
def scanInteger (maximum : Int) (text : List Char) : Except LexError.Cause Scan :=
  let digits := text.takeWhile Char.isDigit
  let significant := significantDigits digits
  if significant.length > (toString maximum).length ∨ decimalValue significant > maximum then
    .error (.outOfRange (String.ofList digits) maximum)
  else .ok ⟨.integer (decimalValue significant), digits, text.dropWhile Char.isDigit⟩

/-- The string constant whose opening quote stands before the text. -/
def scanString (text : List Char) : Except LexError.Cause Scan :=
  let value := text.takeWhile (· != '"')
  match text.dropWhile (· != '"') with
  | [] => .error .unterminatedString
  | quote :: rest => .ok ⟨.string (String.ofList value), '"' :: value ++ [quote], rest⟩

/-- The lexeme that a word is: a keyword if it is spelled like one. -/
def Lexeme.ofWord (word : String) : Lexeme :=
  match Keyword.ofSpelling? word with
  | some k => .keyword k
  | none => .identifier word

/-- The word at the start of the text. -/
def scanWord : List Char → Except LexError.Cause Scan
  | [] => .error (.notWord none)
  | c :: text =>
    if c.isDigit then .error .digitStart
    else if isNameStart c then
      let word := (c :: text).takeWhile isNamePart
      .ok ⟨.ofWord (String.ofList word), word, (c :: text).dropWhile isNamePart⟩
    else .error (.notWord (some c))

/-- The lexeme at the start of the text that `c` begins. -/
def scanLexeme (maximum : Int) (c : Char) (text : List Char) : Except LexError.Cause Scan :=
  match Symbol.ofChar? c with
  | some s => .ok ⟨.symbol s, [c], text⟩
  | none =>
    if c.isDigit then scanInteger maximum (c :: text)
    else if c = '"' then scanString text
    else if isNameStart c then scanWord (c :: text)
    else .error (.unrecognized c)

/-! ### Scans divide their text -/

/-- What was taken and what is left make up the text, and something was taken. -/
structure Scan.Divides (scan : Scan) (text : List Char) : Prop where
  /-- Nothing is lost. -/
  taken_append_rest : scan.taken ++ scan.rest = text
  /-- Something was read. -/
  taken_ne_nil : scan.taken ≠ []

/-- A scan takes at least one character. -/
theorem Scan.Divides.length_rest_lt {scan : Scan} {text : List Char} (h : scan.Divides text) :
    scan.rest.length < text.length := by
  have hsum : scan.taken.length + scan.rest.length = text.length := by
    rw [← List.length_append, h.taken_append_rest]
  have := List.length_pos_iff.2 h.taken_ne_nil
  omega

theorem scanInteger_divides {maximum : Int} {c : Char} {text : List Char} {scan : Scan}
    (hc : c.isDigit = true) (h : scanInteger maximum (c :: text) = .ok scan) :
    scan.Divides (c :: text) := by
  simp only [scanInteger] at h
  split at h
  · simp at h
  · obtain rfl := Except.ok.inj h
    exact ⟨List.takeWhile_append_dropWhile, by simp [hc]⟩

theorem scanString_divides {text : List Char} {scan : Scan} (h : scanString text = .ok scan) :
    scan.Divides ('"' :: text) := by
  simp only [scanString] at h
  split at h
  · simp at h
  · rename_i quote rest hrest
    obtain rfl := Except.ok.inj h
    refine ⟨?_, by simp⟩
    have hsplit : text.takeWhile (· != '"') ++ text.dropWhile (· != '"') = text :=
      List.takeWhile_append_dropWhile
    rw [hrest] at hsplit
    simp [hsplit]

theorem scanWord_divides {text : List Char} {scan : Scan} (h : scanWord text = .ok scan) :
    scan.Divides text := by
  cases text with
  | nil => simp [scanWord] at h
  | cons c text =>
    simp only [scanWord] at h
    split at h
    · simp at h
    · split at h
      · rename_i hc
        obtain rfl := Except.ok.inj h
        -- A character that may start a name may also continue one, so the run is not empty.
        have hpart : isNamePart c = true := by
          simp only [isNameStart, Bool.or_eq_true] at hc
          simp only [isNamePart, Bool.or_eq_true]
          exact .inl hc
        exact ⟨List.takeWhile_append_dropWhile, by simp [hpart]⟩
      · simp at h

/-- Every scan divides its text. -/
theorem scanLexeme_divides {maximum : Int} {c : Char} {text : List Char} {scan : Scan}
    (h : scanLexeme maximum c text = .ok scan) : scan.Divides (c :: text) := by
  unfold scanLexeme at h
  split at h
  · obtain rfl := Except.ok.inj h
    exact ⟨rfl, by simp⟩
  · split at h
    · rename_i hc
      exact scanInteger_divides hc h
    · split at h
      · rename_i hc
        exact hc ▸ scanString_divides h
      · split at h
        · exact scanWord_divides h
        · simp at h

end JackSyntax
