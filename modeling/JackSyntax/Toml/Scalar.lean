import JackSyntax.Decimal.Shortest
import JackSyntax.Text.Quoted
import JackSyntax.Toml.Value

/-!
# Reading keys, texts, numbers and moments

The parts of a configuration file that contain no others. Each reader takes its part off the front
of a text and gives what it says with the text after it, or nothing if the text does not start so
(`Reader`). Of a value, it also tells what is wrong (`Parser`).
-/

namespace JackSyntax.Toml

/-- Takes a part off the front of a text. -/
abbrev Reader (α : Type) := List Char → Option (α × List Char)

/-- Why a configuration file cannot be read. -/
inductive Fault where
  /-- It does not follow the format. -/
  | malformed
  /-- An integer in it has too many digits. -/
  | digits (e : DigitError)
deriving DecidableEq, Repr

/-- Takes a part off the front of a text, or tells what is wrong. -/
abbrev Parser (α : Type) := List Char → Except Fault (α × List Char)

/-- What a reader gives, where nothing else may stand. -/
def required {α : Type} : Option α → Except Fault α
  | some a => .ok a
  | none => .error .malformed

/-! ### Characters -/

/-- Spaces within a line. -/
def isSpace (c : Char) : Bool :=
  c == ' ' || c == '\t'

/-- Spaces and line ends. -/
def isSpaceOrLine (c : Char) : Bool :=
  isSpace c || c == '\n'

/-- Control characters, which stand in no text on one line and in no comment; the tab is none. -/
def isControl (c : Char) : Bool :=
  (c.toNat < 0x20 && c != '\t') || c.toNat == 0x7F

/-- Characters of keys that need no quotes. -/
def isBareKeyChar (c : Char) : Bool :=
  c.isAlphanum || c == '-' || c == '_'

/-- The value of a hexadecimal digit. -/
def hexValue? (c : Char) : Option Nat :=
  if c.isDigit then some (c.toNat - '0'.toNat)
  else if 'a' ≤ c && c ≤ 'f' then some (c.toNat - 'a'.toNat + 10)
  else if 'A' ≤ c && c ≤ 'F' then some (c.toNat - 'A'.toNat + 10)
  else none

/-- The value of a digit. Characters that are no digits count as zero. -/
def digitValue (c : Char) : Nat :=
  (hexValue? c).getD 0

/-- The number that digits write in a base. -/
def numberOf (base : Nat) (digits : List Char) : Nat :=
  digits.foldl (fun n c ↦ base * n + digitValue c) 0

/-! ### Texts -/

/-- A text in apostrophes, after the first of them. -/
def literalText : Reader String := fun text ↦
  let body := text.takeWhile (· != apostrophe)
  match text.dropWhile (· != apostrophe) with
  | [] => none
  | _ :: rest => if body.any isControl then none else some (String.ofList body, rest)

/-- The text before the first three marks in a row, and the text after them. -/
def splitTriple (mark : Char) : Reader (List Char)
  | a :: b :: c :: rest =>
    if a = mark ∧ b = mark ∧ c = mark then some ([], rest)
    else (splitTriple mark (b :: c :: rest)).map fun (body, rest) ↦ (a :: body, rest)
  | _ => none

/-- The character that a code point in so many hexadecimal digits names, and their number. -/
def codePoint? (count : Nat) (text : List Char) : Option (List Char × Nat) :=
  let digits := text.take count
  let n := numberOf 16 digits
  if digits.length = count ∧ digits.all (fun c ↦ (hexValue? c).isSome) ∧ n.isValidChar then
    some ([Char.ofNat n], count)
  else none

/-- What an escape stands for, given the text after its backslash, and how much of that text it
takes. In a text of several lines, a backslash at the end of a line stands for nothing and takes all
blanks after it. -/
def escapeValue? (multiline : Bool) (text : List Char) : Option (List Char × Nat) :=
  match text with
  | [] => none
  | c :: rest =>
    if multiline && isSpaceOrLine c then
      match text.dropWhile isSpace with
      | [] => some ([], text.length)
      | d :: _ => if d = '\n' then some ([], (text.takeWhile isSpaceOrLine).length) else none
    else if c = 'u' then (codePoint? 4 rest).map fun (chars, n) ↦ (chars, n + 1)
    else if c = 'U' then (codePoint? 8 rest).map fun (chars, n) ↦ (chars, n + 1)
    else
      ([('b', '\x08'), ('t', '\t'), ('n', '\n'), ('f', '\x0c'), ('r', '\r'), ('"', '"'),
        ('\\', '\\')].lookup c).map fun value ↦ ([value], 1)

/-- A text in double quotes, after those that open it; `read` holds what was read of it, last
first. -/
def basicText (multiline : Bool) (read : List Char) : Reader (List Char)
  | [] => none
  | c :: rest =>
    if c = '"' then
      if !multiline then some (read.reverse, rest)
      -- Marks that follow these three are for `withMarks`.
      else if rest.take 2 = ['"', '"'] then some (read.reverse, rest.drop 2)
      else basicText multiline (c :: read) rest
    else if c = '\\' then
      match escapeValue? multiline rest with
      | none => none
      | some (chars, n) => basicText multiline (chars.reverse ++ read) (rest.drop n)
    else if isControl c && !(multiline && c == '\n') then none
    else basicText multiline (c :: read) rest
termination_by text => text.length
decreasing_by all_goals simp only [List.length_cons, List.length_drop]; omega

/-- The text with the marks that follow its end, of which up to two belong to it. -/
def withMarks (mark : Char) (body : List Char) (rest : List Char) : String × List Char :=
  let marks := (rest.take 2).takeWhile (· == mark)
  (String.ofList (body ++ marks), rest.drop marks.length)

/-- A text of several lines starts on its second line if the first is empty. -/
def dropFirstLineEnd : List Char → List Char
  | '\n' :: rest => rest
  | text => text

/-- A text in any of the four kinds of quotes. -/
def anyText : Reader String
  | '"' :: '"' :: '"' :: rest =>
    (basicText true [] (dropFirstLineEnd rest)).map fun (body, rest) ↦ withMarks '"' body rest
  | '"' :: rest => (basicText false [] rest).map fun (body, rest) ↦ (String.ofList body, rest)
  | '\x27' :: '\x27' :: '\x27' :: rest =>
    match splitTriple apostrophe (dropFirstLineEnd rest) with
    | none => none
    | some (body, rest) =>
      if body.any fun c ↦ isControl c && c != '\n' then none
      else some (withMarks apostrophe body rest)
  | '\x27' :: rest => literalText rest
  | _ => none

/-! ### Keys -/

/-- One part of a key: bare, or a text on one line. -/
def keyPart : Reader String
  | [] => none
  | c :: rest =>
    if isBareKeyChar c then
      some (String.ofList ((c :: rest).takeWhile isBareKeyChar),
        (c :: rest).dropWhile isBareKeyChar)
    else if c = apostrophe then literalText rest
    else if c = '"' then (basicText false [] rest).map fun (body, rest) ↦ (String.ofList body, rest)
    else none

/-- A key of at most so many parts with dots between them, and the spaces after it. -/
def keyWithin : Nat → Reader Key
  | 0, _ => none
  | parts + 1, text =>
    match keyPart text with
    | none => none
    | some (part, rest) =>
      match rest.dropWhile isSpace with
      | '.' :: rest =>
        (keyWithin parts (rest.dropWhile isSpace)).map fun (key, rest) ↦ (part :: key, rest)
      | rest => some ([part], rest)

/-- A key, and the spaces after it. -/
def key : Reader Key := fun text ↦
  keyWithin (text.length + 1) text

/-! ### Numbers -/

/-- Digits that continue a number, each after at most one underscore. -/
def moreDigits (isDigit : Char → Bool) : List Char → List Char × List Char
  | [] => ([], [])
  | [c] => if isDigit c then ([c], []) else ([], [c])
  | c :: d :: rest =>
    if isDigit c then
      let (digits, rest) := moreDigits isDigit (d :: rest)
      (c :: digits, rest)
    else if c = '_' ∧ isDigit d then
      let (digits, rest) := moreDigits isDigit rest
      (d :: digits, rest)
    else ([], c :: d :: rest)

/-- The digits of a number, with single underscores between them. -/
def digits (isDigit : Char → Bool) : Reader (List Char)
  | [] => none
  | c :: rest =>
    if isDigit c then
      let (digits, rest) := moreDigits isDigit rest
      some (c :: digits, rest)
    else none

/-- A sign, if there is one. -/
def sign : List Char → Bool × List Char
  | '-' :: rest => (true, rest)
  | '+' :: rest => (false, rest)
  | text => (false, text)

/-- The bases that a prefix can name, with the letter of the prefix. -/
def bases : List (Char × Nat) :=
  [('x', 16), ('o', 8), ('b', 2)]

/-- An integer after the prefix of its base. -/
def prefixedInteger : Reader Toml
  | '0' :: c :: rest =>
    match bases.lookup c with
    | none => none
    | some base =>
      (digits (fun d ↦ (hexValue? d).any (· < base)) rest).map fun (ds, rest) ↦
        (.integer (numberOf base ds), rest)
  | _ => none

/-- The digits after a point, none where there is no point with a digit after it. -/
def fraction : List Char → List Char × List Char
  | '.' :: rest => (digits Char.isDigit rest).getD ([], '.' :: rest)
  | text => ([], text)

/-- The exponent, if there is one. -/
def exponent? (text : List Char) : Option (Int × List Char) :=
  match text with
  | c :: rest =>
    if c = 'e' ∨ c = 'E' then
      let (negative, rest) := sign rest
      (digits Char.isDigit rest).map fun (ds, rest) ↦
        (if negative then -(numberOf 10 ds : Int) else numberOf 10 ds, rest)
    else none
  | [] => none

/-- The integer part of a decimal number, which has no zero before other digits. -/
def wholePart : Reader (List Char)
  | '0' :: rest => some (['0'], rest)
  | text => digits Char.isDigit text

/-- A decimal number: a real if it has a fraction or an exponent, and otherwise an integer, which
may have too many digits. -/
def decimalNumber : Reader (Except DigitError Toml) := fun text ↦
  let (negative, rest) := sign text
  match wholePart rest with
  | none => none
  | some (whole, rest) =>
    let (frac, rest) := fraction rest
    match frac, exponent? rest with
    | [], none =>
      let value := (naturalOfDigits (whole.map digitValue)).map fun (n : Nat) ↦
        Toml.integer (if negative then -n else n)
      some (value, rest)
    | _, power =>
      let (e, rest) := power.getD (0, rest)
      let value : Decimal := ⟨numberOf 10 (whole ++ frac), e - frac.length⟩
      some (.ok (.real ((if negative then "-" else "") ++ value.shortestText)), rest)

/-- The reals that are written as words. -/
def realWord : Reader Toml := fun text ↦
  [("inf", "inf"), ("+inf", "inf"), ("-inf", "-inf"), ("nan", "nan"), ("+nan", "nan"),
    ("-nan", "nan")].findSome? fun (word, value) ↦
      if word.toList.isPrefixOf text then some (.real value, text.drop word.length) else none

/-- A number. -/
def number : Reader (Except DigitError Toml) := fun text ↦
  let exact := fun (read : Option (Toml × List Char)) ↦
    read.map fun (value, rest) ↦ (Except.ok value, rest)
  ((exact (prefixedInteger text)).or (decimalNumber text)).or (exact (realWord text))

/-- A truth value. -/
def truth : Reader Toml := fun text ↦
  [("true", true), ("false", false)].findSome? fun (word, value) ↦
    if word.toList.isPrefixOf text then some (.boolean value, text.drop word.length) else none

/-! ### Moments -/

/-- A number of exactly so many digits, no greater than `most`. -/
def fixedNumber (count most : Nat) : Reader Nat := fun text ↦
  let ds := text.take count
  let n := numberOf 10 ds
  if ds.length = count ∧ ds.all Char.isDigit ∧ n ≤ most then some (n, text.drop count) else none

/-- A number of exactly so many digits after a mark. -/
def markedNumber (mark : Char) (count most : Nat) : Reader Nat
  | [] => none
  | c :: rest => if c = mark then fixedNumber count most rest else none

/-- The millionths of a second that a fraction after its point makes: zero without one, and digits
beyond the sixth do not count. -/
def secondFraction : List Char → Nat × List Char
  | '.' :: rest =>
    let ds := rest.takeWhile Char.isDigit
    if ds.isEmpty then (0, '.' :: rest)
    else
      (numberOf 10 (ds.take 6 ++ List.replicate (6 - ds.length) '0'), rest.dropWhile Char.isDigit)
  | text => (0, text)

/-- A time of day. -/
def timeOfDay : Reader TimeOfDay := fun text ↦ do
  let (hour, rest) ← fixedNumber 2 23 text
  let (minute, rest) ← markedNumber ':' 2 59 rest
  let (second, rest) ← markedNumber ':' 2 59 rest
  let (micros, rest) := secondFraction rest
  return ({ hour, minute, second, micros }, rest)

/-- The offset of a time from universal time. -/
def timeOffset : Reader UtcOffset
  | [] => none
  | c :: rest =>
    if c = 'Z' ∨ c = 'z' then some (⟨0⟩, rest)
    else if c = '+' ∨ c = '-' then do
      let (hour, rest) ← fixedNumber 2 23 rest
      let (minute, rest) ← markedNumber ':' 2 59 rest
      let minutes : Int := 60 * hour + minute
      return (⟨if c = '-' then -minutes else minutes⟩, rest)
    else none

/-- The time after a date, with the mark between them and the offset, if there is one. -/
def timeAfterDate : Reader (TimeOfDay × Option UtcOffset)
  | [] => none
  | c :: rest =>
    if c = 'T' ∨ c = 't' ∨ c = ' ' then
      (timeOfDay rest).map fun (time, rest) ↦
        match timeOffset rest with
        | some (offset, rest) => ((time, some offset), rest)
        | none => ((time, none), rest)
    else none

/-- The date that the text writes, whether or not the calendar has it. -/
def date : Reader Date := fun text ↦ do
  let (year, rest) ← fixedNumber 4 9999 text
  let (month, rest) ← markedNumber '-' 2 12 rest
  let (day, rest) ← markedNumber '-' 2 31 rest
  if month = 0 ∨ day = 0 then none else return ({ year, month, day }, rest)

/-- A date, a date with a time, or a time of day, whether or not the calendar has it. -/
def anyMoment : Reader Moment := fun text ↦
  match date text with
  | some (d, rest) =>
    match timeAfterDate rest with
    | some ((time, offset), rest) => some (.full d time offset, rest)
    | none => some (.date d, rest)
  | none => (timeOfDay text).map fun (time, rest) ↦ (.time time, rest)

/-- A moment or a number. What reads like a moment is no number, even if the calendar does not have
it. -/
def momentOrNumber : Parser Toml := fun text ↦
  match anyMoment text with
  | some (m, rest) => if m.exists? then .ok (.moment m, rest) else .error .malformed
  | none =>
    match number text with
    | some (.ok value, rest) => .ok (value, rest)
    | some (.error e, _) => .error (.digits e)
    | none => .error .malformed

/-- Any value that contains no others. -/
def scalar : Parser Toml := fun text ↦
  if text.head? = some '"' ∨ text.head? = some apostrophe then
    required ((anyText text).map fun (s, rest) ↦ (.string s, rest))
  else
    match truth text with
    | some read => .ok read
    | none => momentOrNumber text

end JackSyntax.Toml
