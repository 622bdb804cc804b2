/-!
# Source text

A shader source, a line of it and a name in it are texts: lists of characters, so that every rule of
the directive grammar is a recursion on the data.  Offsets and lengths count characters.

    Text.split mark t       the parts of `t` between the marks
    Text.lines t            the lines of `t`, cut at every line feed
    Text.universalLines t   `t` with every line end written as one line feed
-/

namespace ShaderFlatten

/-- A text, character by character. -/
abbrev Text := List Char

namespace Text

/-- The characters of a word: ASCII letters and digits. -/
def isWord (c : Char) : Bool := c.isAlphanum

/-- The blanks inside a directive: space and tab. -/
def isHorizontal (c : Char) : Bool := c == ' ' || c == '\t'

/-- One more character in front of the parts of a text. -/
def consPart (mark c : Char) : List Text → List Text
  | [] => [[c]]
  | first :: rest => if c = mark then [] :: first :: rest else (c :: first) :: rest

/-- The parts of a text between the marks.  There is always one more part than marks. -/
def split (mark : Char) (t : Text) : List Text := t.foldr (consPart mark) [[]]

/-- The lines of a text, cut at every line feed. -/
def lines (t : Text) : List Text := split '\n' t

/-- One step of `universalLines`: the text so far, backwards, and whether a carriage return came last. -/
def universalStep : Text × Bool → Char → Text × Bool
  | (done, afterReturn), c =>
    if c = '\r' then ('\n' :: done, true)
    else if c = '\n' && afterReturn then (done, false)
    else (c :: done, false)

/-- Every carriage return, with the line feed after it if there is one, becomes a line feed. -/
def universalLines (t : Text) : Text := (t.foldl universalStep ([], false)).1.reverse

/-- A character lies in one of some ranges, both ends included. -/
def inRanges (ranges : Array (Nat × Nat)) (c : Char) : Bool :=
  ranges.any fun (low, high) => low ≤ c.toNat && c.toNat ≤ high

/-- The value of a hexadecimal digit. -/
def hexValue? (c : Char) : Option Nat :=
  if '0' ≤ c && c ≤ '9' then some (c.toNat - '0'.toNat)
  else if 'a' ≤ c && c ≤ 'f' then some (c.toNat - 'a'.toNat + 10)
  else if 'A' ≤ c && c ≤ 'F' then some (c.toNat - 'A'.toNat + 10)
  else none

/-- The UTF-8 bytes of a text. -/
def encode (t : Text) : ByteArray := (String.ofList t).toUTF8

end Text

/-- `n` in lower-case hexadecimal, with leading zeros up to `width` digits. -/
def hexadecimal (width n : Nat) : String :=
  let digits := Nat.toDigits 16 n
  String.ofList (List.replicate (width - digits.length) '0' ++ digits)

/-- An integer in decimal. -/
def decimal (n : Int) : String :=
  match n with
  | .ofNat k => String.ofList (Nat.toDigits 10 k)
  | .negSucc k => String.ofList ('-' :: Nat.toDigits 10 (k + 1))

/-- Digits in groups of three, counted from the right and divided by commas. -/
def groupDigits (digits : Text) : Text :=
  (digits.reverse.zipIdx.foldl
    (fun done (c, i) => if i != 0 && i % 3 == 0 then c :: ',' :: done else c :: done) [])

/-- An integer in decimal with commas between groups of three digits. -/
def grouped (n : Int) : String :=
  let digits := groupDigits (Nat.toDigits 10 n.natAbs)
  String.ofList (if n < 0 then '-' :: digits else digits)

end ShaderFlatten
