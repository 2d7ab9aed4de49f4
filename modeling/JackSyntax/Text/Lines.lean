/-!
# Lines

Two readings of line ends. A *displayed* line ends at every character that a terminal may break at,
and a carriage return with the line feed after it is one end (`displayLines`). Files are read with
every carriage return, alone or before a line feed, turned into one line feed (`unixLines`).
-/

namespace JackSyntax

/-- The characters at which a displayed line ends. -/
def lineBreaks : List Char :=
  ['\n', '\x0b', '\x0c', '\r', '\x1c', '\x1d', '\x1e', '\x85', '\u2028', '\u2029']

/-- The displayed lines of a text, each with its end. A text that ends in a line break has no empty
last line. -/
def displayLines : List Char → List (List Char)
  | [] => []
  | '\r' :: '\n' :: rest => ['\r', '\n'] :: displayLines rest
  | c :: rest =>
    if lineBreaks.contains c then [c] :: displayLines rest
    else
      match displayLines rest with
      | [] => [[c]]
      | line :: lines => (c :: line) :: lines

/-- The text without the given character at its end. -/
def dropTrailing (c : Char) (text : List Char) : List Char :=
  (text.reverse.dropWhile (· == c)).reverse

/-- A line as it is shown: without the line feeds at its end, and then without the carriage returns
there. Other line breaks stay. -/
def shownLine (line : List Char) : List Char :=
  dropTrailing '\r' (dropTrailing '\n' line)

/-- The text with each carriage return, and the line feed after it, as one line feed. -/
def unixLines : List Char → List Char
  | [] => []
  | '\r' :: '\n' :: rest => '\n' :: unixLines rest
  | c :: rest => (if c = '\r' then '\n' else c) :: unixLines rest

end JackSyntax
