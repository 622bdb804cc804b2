import ShaderFlatten.Text.Basic

/-!
# Blank characters

The white space that may trail a directive and that is cut off around a value: the ASCII blanks, the
four information separators and the blanks and line separators of Unicode.  The zero-width space, the
word joiner and the byte order mark are not blank.
-/

namespace ShaderFlatten.Text

/-- White space in the wide sense. -/
def isBlank (c : Char) : Bool :=
  let n := c.toNat
  (0x09 ≤ n && n ≤ 0x0D) || (0x1C ≤ n && n ≤ 0x20) || n == 0x85 || n == 0xA0 || n == 0x1680
    || (0x2000 ≤ n && n ≤ 0x200A) || n == 0x2028 || n == 0x2029 || n == 0x202F || n == 0x205F
    || n == 0x3000

/-- White space in the narrow sense: space, tab, line feed, vertical tab, form feed, carriage return. -/
def isAsciiBlank (c : Char) : Bool := (0x09 ≤ c.toNat && c.toNat ≤ 0x0D) || c == ' '

/-- A text without the characters of a class at its two ends. -/
def trimBy (cut : Char → Bool) (t : Text) : Text :=
  ((t.dropWhile cut).reverse.dropWhile cut).reverse

/-- A text without the blanks at its two ends. -/
def trim (t : Text) : Text := trimBy isBlank t

end ShaderFlatten.Text
