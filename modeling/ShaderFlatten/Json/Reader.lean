import ShaderFlatten.Value

/-!
# Reading JSON

A JSON text holds one value with blanks around it.  Beyond the standard, `NaN`, `Infinity` and
`-Infinity` are numbers.  A number with a fraction or an exponent is a floating-point number and any
other an integer, which may have at most `Numeral.maxDigits` digits.  Of equal keys the last one wins.
Lists and mappings may be nested `maxNesting` deep.

    Json.read t    the value that `t` spells

Every reader takes the text that remains and returns its value with the rest.
-/

namespace ShaderFlatten.Json

/-- Why a JSON text has no value. -/
inductive ReadError where
  | malformed
  | digits (limit : DigitLimit)
  /-- a list, or else a mapping, is nested too deeply -/
  | tooDeep (list : Bool)
  deriving DecidableEq, Repr

/-- How deep lists and mappings may be nested on a stack of a thousand calls. -/
def maxNesting : Nat := 990

/-- The blanks between the parts of a JSON text. -/
def isGap (c : Char) : Bool := c == ' ' || c == '\t' || c == '\n' || c == '\r'

/-- A text without the blanks in front. -/
def skipGap (t : Text) : Text := t.dropWhile isGap

/-- The rest of a text behind a fixed beginning. -/
def after? (start t : Text) : Option Text :=
  if start.isPrefixOf t then some (t.drop start.length) else none

/-! ## Strings -/

/-- The code unit that four hexadecimal digits spell. -/
def codeUnit? : Text → Option (Nat × Text)
  | a :: b :: c :: d :: rest => do
    let a ← Text.hexValue? a
    let b ← Text.hexValue? b
    let c ← Text.hexValue? c
    let d ← Text.hexValue? d
    return (((a * 16 + b) * 16 + c) * 16 + d, rest)
  | _ => none

/-- The character that stands for half of a pair without its partner.  The last private characters are taken
for the halves, so that strings with different halves differ; a document is not expected to use them itself. -/
def loneHalf (unit : Nat) : Char := Char.ofNat (0x10F800 + (unit - 0xD800))

/-- The character of a code unit and, if it is the first half of a pair, of the escape behind it. -/
def unitChar (first : Nat) (rest : Text) : Option (Char × Text) :=
  if 0xD800 ≤ first && first < 0xDC00 then
    match rest with
    | '\\' :: 'u' :: more =>
      match codeUnit? more with
      | none => none
      | some (second, behind) =>
        if 0xDC00 ≤ second && second < 0xE000 then
          some (Char.ofNat (0x10000 + (first - 0xD800) * 0x400 + (second - 0xDC00)), behind)
        else some (loneHalf first, rest)
    | _ => some (loneHalf first, rest)
  else if 0xDC00 ≤ first && first < 0xE000 then some (loneHalf first, rest)
  else some (Char.ofNat first, rest)

/-- The character that an escape letter stands for. -/
def escapeLetter? : Char → Option Char
  | '\"' => some '\"'
  | '\\' => some '\\'
  | '/' => some '/'
  | 'b' => some (Char.ofNat 8)
  | 'f' => some (Char.ofNat 12)
  | 'n' => some '\n'
  | 'r' => some '\r'
  | 't' => some '\t'
  | _ => none

/-- The characters up to the closing quote; `done` holds those before, backwards, and `fuel` is at
least the length of the text. -/
def stringTail (fuel : Nat) (done : Text) (t : Text) : Except ReadError (String × Text) :=
  match fuel, t with
  | 0, _ => .error .malformed
  | _ + 1, [] => .error .malformed
  | fuel + 1, c :: rest =>
    if c = '\"' then .ok (String.ofList done.reverse, rest)
    else if c = '\\' then
      match rest with
      | [] => .error .malformed
      | 'u' :: more =>
        match codeUnit? more with
        | none => .error .malformed
        | some (first, behind) =>
          match unitChar first behind with
          | none => .error .malformed
          | some (ch, behind) => stringTail fuel (ch :: done) behind
      | letter :: more =>
        match escapeLetter? letter with
        | some ch => stringTail fuel (ch :: done) more
        | none => .error .malformed
    else if c.toNat < 0x20 then .error .malformed
    else stringTail fuel (c :: done) rest

/-! ## Numbers -/

/-- A fraction: a point and digits, or nothing. -/
def fraction (t : Text) : Text × Text :=
  match t with
  | '.' :: rest =>
    let digits := rest.takeWhile Char.isDigit
    if digits.isEmpty then ([], t) else ('.' :: digits, rest.dropWhile Char.isDigit)
  | _ => ([], t)

/-- The sign of an exponent, if there is one. -/
def exponentSign : Text → Text × Text
  | '+' :: rest => (['+'], rest)
  | '-' :: rest => (['-'], rest)
  | t => ([], t)

/-- An exponent: its mark, an optional sign and digits, or nothing. -/
def exponent (t : Text) : Text × Text :=
  match t with
  | mark :: rest =>
    if mark = 'e' || mark = 'E' then
      let (sign, rest) := exponentSign rest
      let digits := rest.takeWhile Char.isDigit
      if digits.isEmpty then ([], t) else (mark :: sign ++ digits, rest.dropWhile Char.isDigit)
    else ([], t)
  | [] => ([], t)

/-- The digits in front of the point: a single zero, or digits that start with no zero. -/
def wholeDigits (t : Text) : Text × Text :=
  match t with
  | '0' :: rest => (['0'], rest)
  | _ => (t.takeWhile Char.isDigit, t.dropWhile Char.isDigit)

/-- A number. -/
def number (t : Text) : Except ReadError (Value × Text) :=
  let (negative, unsigned) :=
    match t with
    | '-' :: rest => (true, rest)
    | _ => (false, t)
  let (whole, rest) := wholeDigits unsigned
  if whole.isEmpty then .error .malformed
  else
    let (decimals, rest) := fraction rest
    let (power, rest) := exponent rest
    if decimals.isEmpty && power.isEmpty then
      if Numeral.maxDigits < whole.length then .error (.digits (.reading whole.length))
      else
        let n := Numeral.digitsValue whole
        .ok (.int (if negative then -(n : Int) else n), rest)
    else
      match Numeral.unsignedFloat? negative (whole ++ decimals ++ power) with
      | some x => .ok (.float x, rest)
      | none => .error .malformed

/-! ## Values -/

/-- The words that are values, and the values that they are. -/
def words : List (Text × Value) :=
  [("null".toList, .null), ("true".toList, .bool true), ("false".toList, .bool false),
    ("NaN".toList, .float .nan), ("Infinity".toList, .float (.infinite false)),
    ("-Infinity".toList, .float (.infinite true))]

/-- A value that is neither a string nor a collection. -/
def simple (t : Text) : Except ReadError (Value × Text) :=
  match words.findSome? fun (word, value) => (after? word t).map fun rest => (value, rest) with
  | some (value, rest) => .ok (value, rest)
  | none => number t

mutual

/-- A value; `fuel` is at least the length of the text, and `nesting` tells how many lists and mappings may
still be opened inside each other. -/
def value (fuel nesting : Nat) (t : Text) : Except ReadError (Value × Text) :=
  match fuel, t with
  | 0, _ => .error .malformed
  | fuel + 1, '\"' :: rest => do
    let (s, rest) ← stringTail fuel [] rest
    return (.text s, rest)
  | fuel + 1, '[' :: rest =>
    match nesting, skipGap rest with
    | 0, _ => .error (.tooDeep true)
    | _ + 1, ']' :: rest => .ok (.list [], rest)
    | nesting + 1, rest => do
      let (items, rest) ← itemList fuel nesting [] rest
      return (.list items, rest)
  | fuel + 1, '\x7b' :: rest =>
    match nesting, skipGap rest with
    | 0, _ => .error (.tooDeep false)
    | _ + 1, '\x7d' :: rest => .ok (.map [], rest)
    | nesting + 1, rest => do
      let (entries, rest) ← entryList fuel nesting [] rest
      return (.map entries, rest)
  | _ + 1, t => simple t

/-- The items of a list up to its end; `done` holds those before, backwards. -/
def itemList (fuel nesting : Nat) (done : List Value) (t : Text) :
    Except ReadError (List Value × Text) :=
  match fuel with
  | 0 => .error .malformed
  | fuel + 1 => do
    let (item, rest) ← value fuel nesting t
    match skipGap rest with
    | ',' :: rest => itemList fuel nesting (item :: done) (skipGap rest)
    | ']' :: rest => return ((item :: done).reverse, rest)
    | _ => throw .malformed

/-- The entries of a mapping up to its end; `done` holds those before. -/
def entryList (fuel nesting : Nat) (done : Table Value) (t : Text) :
    Except ReadError (Table Value × Text) :=
  match fuel, t with
  | fuel + 1, '\"' :: rest => do
    let (key, rest) ← stringTail fuel [] rest
    match skipGap rest with
    | ':' :: rest =>
      let (item, rest) ← value fuel nesting (skipGap rest)
      let done := done.insert key item
      match skipGap rest with
      | ',' :: rest => entryList fuel nesting done (skipGap rest)
      | '\x7d' :: rest => return (done, rest)
      | _ => throw .malformed
    | _ => throw .malformed
  | _, _ => .error .malformed

end

/-- The value that a JSON text spells. -/
def read (t : Text) : Except ReadError Value := do
  let (v, rest) ← value (t.length + 1) maxNesting (skipGap t)
  if (skipGap rest).isEmpty then return v else throw .malformed

end ShaderFlatten.Json
