import ShaderFlatten.Number.Binary64
import ShaderFlatten.Text.Blank
import ShaderFlatten.Text.DecimalDigit

/-!
# Numerals

The spellings of integers and floating-point numbers that a user may type: an optional sign, digits of
any script, single underscores between digits, blanks around.  An integer has at most
`Numeral.maxDigits` digits; a floating-point numeral may have a point, an exponent, or be one of the
words for infinity and NaN.
-/

namespace ShaderFlatten.Numeral

/-- The greatest number of digits of an integer that is read or written in decimal. -/
def maxDigits : Nat := 4300

/-- A character as numerals see it: outside ASCII, digits of every script are ASCII digits, blanks
are spaces, and a question mark stands for any other character. -/
def fold (c : Char) : Char :=
  if c.toNat < 127 then c
  else if Text.isBlank c then ' '
  else
    match Text.digitValue? c with
    | some d => Char.ofNat ('0'.toNat + d)
    | none => '?'

/-- A numeral without the blanks around it; the information separators of ASCII are not blanks here. -/
def normalize (t : Text) : Text := Text.trimBy Text.isAsciiBlank (t.map fold)

/-- The sign in front of a numeral and what follows it. -/
def splitSign : Text → Bool × Text
  | '-' :: rest => (true, rest)
  | '+' :: rest => (false, rest)
  | t => (false, t)

/-- Underscores stand only between two digits: remove them, or refuse; `previous` is the character
before. -/
def dropUnderscores (previous : Char) : Text → Option Text
  | [] => if previous == '_' then none else some []
  | c :: rest =>
    if c == '_' then
      if previous.isDigit then dropUnderscores c rest else none
    else if previous == '_' && !c.isDigit then none
    else (dropUnderscores c rest).map (c :: ·)

/-- The value of a list of ASCII digits. -/
def digitsValue (digits : Text) : Nat :=
  digits.foldl (fun n c => 10 * n + (c.toNat - '0'.toNat)) 0

/-- What reading an integer gives. -/
inductive IntReading where
  | value (n : Int)
  /-- an integer with more digits than are read -/
  | tooLong (digits : Nat)
  | malformed
  deriving DecidableEq, Repr

/-- The letter behind a zero that announces digits of a base. -/
def baseLetter? (base : Nat) : Option Char :=
  if base = 2 then some 'b' else if base = 8 then some 'o' else if base = 16 then some 'x' else none

/-- An unsigned integer without the letters that announce its base; one underscore may follow them. -/
def dropAnnouncement (base : Nat) : Text → Text
  | '0' :: letter :: rest =>
    if baseLetter? base = some letter.toLower then
      match rest with
      | '_' :: rest => rest
      | rest => rest
    else '0' :: letter :: rest
  | t => t

/-- A digit of a base up to sixteen. -/
def isDigitOf (base : Nat) (c : Char) : Bool := (Text.hexValue? c).any (· < base)

/-- Underscores stand only singly and between digits: remove them, or refuse. -/
def joinDigits? (run : Text) : Option Text :=
  if (Text.split '_' run).all (!·.isEmpty) then some (run.filter (· != '_')) else none

/-- The value of a list of digits of a base. -/
def basedValue (base : Nat) (digits : Text) : Nat :=
  digits.foldl (fun n c => base * n + (Text.hexValue? c).getD 0) 0

/-- Read an integer in a base.  Decimal digits are counted before anything behind them is looked at;
a base that is a power of two has no limit. -/
def readIntIn (base : Nat) (t : Text) : IntReading :=
  let (negative, body) := splitSign (normalize t)
  let body := dropAnnouncement base body
  let inRun := fun c => c == '_' || isDigitOf base c
  match joinDigits? (body.takeWhile inRun) with
  | none => .malformed
  | some digits =>
    if base = 10 && maxDigits < digits.length then .tooLong digits.length
    else if !(body.dropWhile inRun).isEmpty then .malformed
    else
      let n := basedValue base digits
      .value (if negative then -(n : Int) else n)

/-- Read a decimal integer. -/
def readInt (t : Text) : IntReading := readIntIn 10 t

/-- The integer that a text spells, within the digit limit. -/
def int? (t : Text) : Option Int :=
  match readInt t with
  | .value n => some n
  | _ => none

/-- The exponent part of a numeral: nothing, or a mark, an optional sign and digits. -/
def exponent? : Text → Option Int
  | [] => some 0
  | mark :: rest =>
    if mark == 'e' || mark == 'E' then
      let (negative, digits) := splitSign rest
      if digits.isEmpty || !digits.all (·.isDigit) then none
      else some (if negative then -(digitsValue digits : Int) else digitsValue digits)
    else none

/-- An unsigned floating-point numeral: digits with at most one point and at least one digit, and an
optional exponent. -/
def unsignedFloat? (negative : Bool) (t : Text) : Option Binary64 :=
  let whole := t.takeWhile Char.isDigit
  let rest := t.dropWhile Char.isDigit
  let (fraction, rest) :=
    match rest with
    | '.' :: rest => (rest.takeWhile Char.isDigit, rest.dropWhile Char.isDigit)
    | _ => ([], rest)
  if whole.isEmpty && fraction.isEmpty then none
  else
    (exponent? rest).map fun e =>
      Binary64.ofDecimal negative (digitsValue (whole ++ fraction)) (e - fraction.length)

/-- The floating-point number that a text spells, rounded to the nearest. -/
def float? (t : Text) : Option Binary64 :=
  match dropUnderscores ' ' (normalize t) with
  | none => none
  | some body =>
    let (negative, body) := splitSign body
    let word := String.ofList (body.map Char.toLower)
    if word = "nan" then some .nan
    else if word = "inf" || word = "infinity" then some (.infinite negative)
    else unsignedFloat? negative body

end ShaderFlatten.Numeral
