import JackSyntax.Token.Position

/-!
# The cursor

How far a text has been read, counted in lines, columns, code points and bytes of UTF-8. A cursor
moves one character at a time (`Cursor.step`), so that moving over two pieces of text is moving over
the one after the other (`Cursor.advance_append`).
-/

namespace JackSyntax

/-- How far a text has been read. -/
structure Cursor where
  /-- The current line, from one. -/
  line : Nat := 1
  /-- The current column, from one. -/
  column : Nat := 1
  /-- The code points read. -/
  offset : Nat := 0
  /-- The bytes read, in UTF-8. -/
  consumed : Nat := 0
deriving DecidableEq, Repr

namespace Cursor

/-- The cursor at the start of a text. -/
def start : Cursor := {}

/-- The cursor past one more character. Only a line feed ends a line. -/
def step (cursor : Cursor) (c : Char) : Cursor where
  line := if c = '\n' then cursor.line + 1 else cursor.line
  column := if c = '\n' then 1 else cursor.column + 1
  offset := cursor.offset + 1
  consumed := cursor.consumed + c.utf8Size

/-- The cursor past more text. -/
def advance (cursor : Cursor) (text : List Char) : Cursor :=
  text.foldl step cursor

@[simp]
theorem advance_nil (cursor : Cursor) : cursor.advance [] = cursor := rfl

theorem advance_append (cursor : Cursor) (s t : List Char) :
    cursor.advance (s ++ t) = (cursor.advance s).advance t :=
  List.foldl_append ..

/-- The place of the cursor. -/
def position (cursor : Cursor) : Position :=
  ⟨cursor.line, cursor.column, cursor.offset⟩

end Cursor

/-- The place just past the last character of a text: on the line after its last line feed, past the
characters that follow it. -/
def endPosition (text : String) : Position :=
  let chars := text.toList
  ⟨chars.count '\n' + 1, (chars.reverse.takeWhile (· != '\n')).length + 1, chars.length⟩

end JackSyntax
