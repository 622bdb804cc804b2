import ShaderFlatten.Text.Printable

/-!
# Quoted text

Messages show a text between quotes.  The single quote is used unless the text holds one and no double
quote; the quote in use and the backslash are escaped, line feed, carriage return and tab have letters
of their own, and every other character that is not printable is written by its code point in the
shortest of three hexadecimal forms.  Bytes are shown in the same way behind a letter of their own, with
all that is not ASCII escaped.
-/

namespace ShaderFlatten.Text

/-- The quote that `quote` puts around a text. -/
def quoteMark (t : Text) : Char :=
  if t.contains '\'' && !t.contains '\"' then '\"' else '\''

/-- A code point as a hexadecimal escape: two, four or eight digits, the fewest that suffice. -/
def codeEscape (n : Nat) : Text :=
  if n ≤ 0xFF then '\\' :: 'x' :: (hexadecimal 2 n).toList
  else if n ≤ 0xFFFF then '\\' :: 'u' :: (hexadecimal 4 n).toList
  else '\\' :: 'U' :: (hexadecimal 8 n).toList

/-- A character as it stands between two `mark`s. -/
def quoteChar (mark c : Char) : Text :=
  if c = mark || c = '\\' then ['\\', c]
  else if c = '\n' then ['\\', 'n']
  else if c = '\r' then ['\\', 'r']
  else if c = '\t' then ['\\', 't']
  else if isPrintable c then [c]
  else codeEscape c.toNat

/-- A text between quotes. -/
def quote (t : Text) : String :=
  let mark := quoteMark t
  String.ofList (mark :: t.flatMap (quoteChar mark) ++ [mark])

/-- A byte as it stands between two `mark`s. -/
def quoteByte (mark : Char) (b : UInt8) : Text :=
  let c := Char.ofNat b.toNat
  if c = mark || c = '\\' then ['\\', c]
  else if c = '\n' then ['\\', 'n']
  else if c = '\r' then ['\\', 'r']
  else if c = '\t' then ['\\', 't']
  else if 0x20 ≤ b.toNat && b.toNat < 0x7F then [c]
  else '\\' :: 'x' :: (hexadecimal 2 b.toNat).toList

/-- Bytes between quotes.  The single quote is used unless it is among them and the double quote is not. -/
def quoteBytes (bytes : List UInt8) : String :=
  let mark := if bytes.contains 39 && !bytes.contains 34 then '\"' else '\''
  String.ofList ('b' :: mark :: bytes.flatMap (quoteByte mark) ++ [mark])

end ShaderFlatten.Text

namespace ShaderFlatten

/-- A string between quotes. -/
def quoted (s : String) : String := Text.quote s.toList

end ShaderFlatten
