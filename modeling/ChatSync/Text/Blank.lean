/-!
# Blank characters

The characters with the Unicode `White_Space` property, and trimming by them.
Settings read from the environment and timestamps read from text both skip
these characters, not only the ASCII blanks that `Char.isWhitespace` knows.
-/

namespace ChatSync.Text

/-- A character is blank when it has the Unicode `White_Space` property:
the ASCII tab to carriage return, the space, next line, no-break space, the
Ogham space mark, the typographic spaces, the line and paragraph separators,
the narrow no-break space, the medium mathematical space and the ideographic
space. -/
def isBlank (c : Char) : Bool :=
  let n := c.toNat
  (0x09 ≤ n && n ≤ 0x0D) || n == 0x20 || n == 0x85 || n == 0xA0 || n == 0x1680 ||
    (0x2000 ≤ n && n ≤ 0x200A) || n == 0x2028 || n == 0x2029 || n == 0x202F ||
    n == 0x205F || n == 0x3000

/-- The characters after the leading blanks. -/
def dropBlanks (cs : List Char) : List Char :=
  cs.dropWhile isBlank

/-- A text is blank when nothing is left after trimming its blanks. -/
def isBlankText (s : String) : Bool :=
  s.toList.all isBlank

example : isBlank '　' = true ∧ isBlank 'a' = false ∧ isBlank '\x0c' = true := by decide

end ChatSync.Text
