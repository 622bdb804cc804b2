import ShaderFlatten.Text.Basic

/-!
# Places in a YAML text

A cursor is the rest of a text together with the place where it starts.  Line ends are the carriage
return, the line feed, the next-line character and the two Unicode separators.
-/

namespace ShaderFlatten.Yaml

/-- What `Cursor.peek` sees at the end of the text; the text itself never holds it. -/
def endMark : Char := Char.ofNat 0

/-- Line ends. -/
def isBreak (c : Char) : Bool :=
  c == '\n' || c == '\r' || c == Char.ofNat 0x85 || c == Char.ofNat 0x2028 || c == Char.ofNat 0x2029

/-- Line ends and the end of the text. -/
def isLineEnd (c : Char) : Bool := isBreak c || c == endMark

/-- Space, line ends and the end of the text. -/
def isSpaceOrEnd (c : Char) : Bool := isLineEnd c || c == ' '

/-- Space, tab, line ends and the end of the text. -/
def isBlankOrEnd (c : Char) : Bool := isSpaceOrEnd c || c == '\t'

/-- The rest of a text and where it starts: how many characters, lines and columns in. -/
structure Cursor where
  rest : Text
  index : Nat
  line : Nat
  column : Nat

namespace Cursor

/-- The start of a text. -/
def start (t : Text) : Cursor := ⟨t, 0, 0, 0⟩

/-- The character some places ahead. -/
def peekAt (c : Cursor) (n : Nat) : Char := c.rest.getD n endMark

/-- The next character. -/
def peek (c : Cursor) : Char := c.peekAt 0

/-- The byte order mark. -/
def byteOrderMark : Char := Char.ofNat 0xFEFF

/-- One character on.  A carriage return before a line feed does not end the line yet. -/
def advance (c : Cursor) : Cursor :=
  match c.rest with
  | [] => c
  | ch :: rest =>
    if isBreak ch && !(ch == '\r' && rest.head? == some '\n') then ⟨rest, c.index + 1, c.line + 1, 0⟩
    else if ch == byteOrderMark then ⟨rest, c.index + 1, c.line, c.column⟩
    else ⟨rest, c.index + 1, c.line, c.column + 1⟩

/-- Some characters on. -/
def advanceBy (c : Cursor) : Nat → Cursor
  | 0 => c
  | n + 1 => c.advance.advanceBy n

/-- The characters of a class in front of the cursor. -/
def run (c : Cursor) (p : Char → Bool) : Text := c.rest.takeWhile p

/-- Skip the characters of a class. -/
def skip (c : Cursor) (p : Char → Bool) : Cursor := c.advanceBy (c.run p).length

/-- Skip spaces. -/
def skipSpaces (c : Cursor) : Cursor := c.skip (· == ' ')

/-- Skip spaces up to a column. -/
def skipIndent (c : Cursor) (column : Nat) : Cursor :=
  c.advanceBy (min (c.run (· == ' ')).length (column - c.column))

/-- Skip a comment up to the end of its line. -/
def skipComment (c : Cursor) : Cursor := if c.peek == '#' then c.skip (!isLineEnd ·) else c

/-- The line end at the cursor as the text keeps it: a line feed, or one of the Unicode separators. -/
def break? (c : Cursor) : Option (Char × Cursor) :=
  match c.rest with
  | '\r' :: '\n' :: _ => some ('\n', c.advanceBy 2)
  | ch :: _ =>
    if ch == Char.ofNat 0x2028 || ch == Char.ofNat 0x2029 then some (ch, c.advance)
    else if isBreak ch then some ('\n', c.advance)
    else none
  | [] => none

/-- Skip a line end, if there is one. -/
def skipBreak (c : Cursor) : Cursor := (c.break?.map (·.2)).getD c

/-- Three dashes or dots that stand alone divide documents. -/
def atSeparator (c : Cursor) : Bool :=
  (['-', '-', '-'].isPrefixOf c.rest || ['.', '.', '.'].isPrefixOf c.rest) && isBlankOrEnd (c.peekAt 3)

end Cursor

end ShaderFlatten.Yaml
