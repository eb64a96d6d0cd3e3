import ShellPrompt.Text.CodeRanges

/-!
White space and line boundaries. Both are properties of Unicode characters: separators and the
ASCII controls that act as such, and the characters that end a line.
-/

namespace ShellPrompt.Text

/-- The characters that count as white space. -/
def blankRanges : CodeRanges :=
  [(0x9, 0xD), (0x1C, 0x20), (0x85, 0x85), (0xA0, 0xA0), (0x1680, 0x1680), (0x2000, 0x200A),
   (0x2028, 0x2029), (0x202F, 0x202F), (0x205F, 0x205F), (0x3000, 0x3000)]

/-- Whether a character is white space. -/
def isBlank (c : Char) : Bool := blankRanges.has c

/-- The characters that end a line; a carriage return and line feed together end one line. -/
def isLineEnd (c : Char) : Bool :=
  CodeRanges.has [(0x0A, 0x0D), (0x1C, 0x1E), (0x85, 0x85), (0x2028, 0x2029)] c

end ShellPrompt.Text
