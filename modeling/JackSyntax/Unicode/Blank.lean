import JackSyntax.Unicode.CodeRanges

/-!
# Blank characters

The characters that separate lexemes: those whose bidirectional class is a paragraph separator, a
segment separator or white space, and those of category `Zs`, as of Unicode 14.
-/

namespace JackSyntax

/-- Blank characters, as ascending intervals. -/
def blankRanges : CodeRanges :=
  [(0x9, 0xD), (0x1C, 0x20), (0x85, 0x85), (0xA0, 0xA0), (0x1680, 0x1680), (0x2000, 0x200A),
   (0x2028, 0x2029), (0x202F, 0x202F), (0x205F, 0x205F), (0x3000, 0x3000)]

/-- Whether the character is blank. -/
def isBlank (c : Char) : Bool :=
  blankRanges.contains c.toNat

end JackSyntax
