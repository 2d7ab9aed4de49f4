import JackSyntax.Toml.Scalar

/-!
# Reading configuration files

A configuration file is read line by line: keys with values, headers of tables and headers of array
elements. Besides the values, the reader keeps which tables may not be declared again and which
values may not be extended.

Values nest, and so do the readers of arrays and inline tables. Each call takes at least one
character before it calls on, or is called where one was taken; the number of characters bounds the
depth (`value`, `document`).
-/

namespace JackSyntax.Toml

/-- What follows a comment, or the text itself if it does not start with one. -/
def skipComment (text : List Char) : Option (List Char) :=
  match text with
  | '#' :: rest =>
    if (rest.takeWhile (· != '\n')).any isControl then none
    else some (rest.dropWhile (· != '\n'))
  | _ => some text

/-- What follows spaces, line ends and comments, at most so many of the last. -/
def skipBlankWithin : Nat → List Char → Option (List Char)
  | 0, _ => none
  | comments + 1, text =>
    let text := text.dropWhile isSpaceOrLine
    if text.head? = some '#' then (skipComment text).bind (skipBlankWithin comments)
    else some text

/-- What follows spaces, line ends and comments. -/
def skipBlank (text : List Char) : Option (List Char) :=
  skipBlankWithin (text.length + 1) text

/-- Whether one of the keys is the start of the key or all of it. -/
def coversKey (keys : List Key) (key : Key) : Bool :=
  keys.any (·.isPrefixOf key)

/-- Whether the value is one that nothing may extend once it is written. -/
def isContainer : Toml → Bool
  | array _ | table _ => true
  | _ => false

/-- The value under a key of several parts, in a table without entries that it would change. -/
def addUnder (intoArrays : Bool) (key : Key) (value : Toml) (t : Table) : Option Table :=
  match key.getLast? with
  | none => none
  | some last => t.update intoArrays (Table.add last value) key.dropLast

mutual

/-- A value that nests at most so deep. -/
def valueWithin : Nat → Parser Toml
  | 0, _ => .error .malformed
  | depth + 1, text =>
    match text with
    | '[' :: rest => do
      match ← required (skipBlank rest) with
      | ']' :: rest => return (.array [], rest)
      | rest => itemsWithin depth [] rest
    | '\x7b' :: rest =>
      match rest.dropWhile isSpace with
      | '\x7d' :: rest => .ok (.table [], rest)
      | rest => entriesWithin depth [] [] rest
    | _ => scalar text

/-- The values of an array after those already read, and the bracket after them. -/
def itemsWithin : Nat → List Toml → Parser Toml
  | 0, _, _ => .error .malformed
  | depth + 1, read, text => do
    let (item, rest) ← valueWithin depth text
    match ← required (skipBlank rest) with
    | ']' :: rest => return (.array (read ++ [item]), rest)
    | ',' :: rest =>
      match ← required (skipBlank rest) with
      | ']' :: rest => return (.array (read ++ [item]), rest)
      | rest => itemsWithin depth (read ++ [item]) rest
    | _ => .error .malformed

/-- The entries of an inline table after those already read, and the brace after them; `closed`
holds the keys of those that may not be extended. -/
def entriesWithin : Nat → List Key → Table → Parser Toml
  | 0, _, _, _ => .error .malformed
  | depth + 1, closed, read, text => do
    let ((key, value), rest) ← pairWithin depth text
    if coversKey closed key then .error .malformed
    else
      let read ← required (addUnder false key value read)
      match rest.dropWhile isSpace with
      | '\x7d' :: rest => return (.table read, rest)
      | ',' :: rest =>
        let closed := if isContainer value then key :: closed else closed
        entriesWithin depth closed read (rest.dropWhile isSpace)
      | _ => .error .malformed

/-- A key, an equals sign and a value. -/
def pairWithin : Nat → Parser (Key × Toml)
  | 0, _ => .error .malformed
  | depth + 1, text =>
    match key text with
    | some (key, '=' :: rest) => do
      let (value, rest) ← valueWithin depth (rest.dropWhile isSpace)
      return ((key, value), rest)
    | _ => .error .malformed

end

/-- A key, an equals sign and a value. -/
def pair : Parser (Key × Toml) := fun text ↦
  pairWithin (3 * text.length + 3) text

/-- What has been read of a file. -/
structure Document where
  /-- The values. -/
  root : Table := []
  /-- The key of the table that entries now go to. -/
  header : Key := []
  /-- The tables that no header may name again. -/
  declared : List Key := []
  /-- The tables that dotted keys made since the last header, which no header may name. -/
  pending : List Key := []
  /-- The values that nothing may extend. -/
  closed : List Key := []

namespace Document

/-- Adds an entry to the current table. A dotted key may not enter a table that has a header of its
own. -/
def addEntry (d : Document) (key : Key) (value : Toml) : Option Document :=
  -- The tables that the parts of the key before its last one name.
  let inner := (List.range key.length).tail.map fun n ↦ d.header ++ key.take n
  let whole := d.header ++ key
  if inner.any d.declared.contains || coversKey d.closed whole.dropLast then none
  else
    (addUnder true whole value d.root).map fun root ↦
      { d with
        root
        pending := inner ++ d.pending
        closed := if isContainer value then whole :: d.closed else d.closed }

/-- Forbids headers for the tables that dotted keys made. -/
def settle (d : Document) : Document :=
  { d with declared := d.pending ++ d.declared, pending := [] }

/-- Opens a table for the entries that follow. -/
def openTable (d : Document) (key : Key) : Option Document :=
  if d.declared.contains key || coversKey d.closed key then none
  else
    (d.root.update true some key).map fun root ↦
      { d with root, header := key, declared := key :: d.declared }

/-- Opens a new element of an array of tables for the entries that follow. What was said of tables
inside the element before it holds no longer. -/
def openElement (d : Document) (key : Key) : Option Document :=
  if coversKey d.closed key then none
  else
    match key.getLast? with
    | none => none
    | some last =>
      (d.root.update true (Table.addToArray last) key.dropLast).map fun root ↦
        { d with
          root
          header := key
          declared := key :: d.declared.filter fun k ↦ !key.isPrefixOf k
          closed := d.closed.filter fun k ↦ !key.isPrefixOf k }

end Document

/-- Reads one statement, which the text starts with. -/
def statement (d : Document) : Parser Document := fun text ↦
  match text with
  | '[' :: '[' :: rest =>
    match key (rest.dropWhile isSpace) with
    | some (key, ']' :: ']' :: rest) =>
      required ((d.settle.openElement key).map fun d ↦ (d, rest))
    | _ => .error .malformed
  | '[' :: rest =>
    match key (rest.dropWhile isSpace) with
    | some (key, ']' :: rest) => required ((d.settle.openTable key).map fun d ↦ (d, rest))
    | _ => .error .malformed
  | '#' :: _ => .ok (d, text)
  | _ => do
    let ((key, value), rest) ← pair text
    required ((d.addEntry key value).map fun d ↦ (d, rest))

/-- Reads at most so many lines. -/
def linesWithin : Nat → Document → List Char → Except Fault Document
  | 0, _, _ => .error .malformed
  | lines + 1, d, text =>
    match text.dropWhile isSpace with
    | [] => .ok d
    | '\n' :: rest => linesWithin lines d rest
    | text => do
      let (d, rest) ← statement d text
      match ← required (skipComment (rest.dropWhile isSpace)) with
      | [] => return d
      | '\n' :: rest => linesWithin lines d rest
      | _ => .error .malformed

/-- The text with each carriage return before a line feed dropped. -/
def joinLineEnds : List Char → List Char
  | [] => []
  | '\r' :: '\n' :: rest => '\n' :: joinLineEnds rest
  | c :: rest => c :: joinLineEnds rest

/-- The table that a configuration file holds, or what is wrong with it. Of two faults the first in
the file counts. -/
def document (text : List Char) : Except Fault Table :=
  let text := joinLineEnds text
  (linesWithin (text.length + 1) {} text).map Document.root

end JackSyntax.Toml
