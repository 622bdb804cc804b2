import ShaderFlatten.Yaml.Cursor
import ShaderFlatten.Yaml.Error

/-!
# YAML scalars

Scalars are plain, between single or double quotes, or blocks of lines, kept (`|`) or folded (`>`).  In
all of them but kept blocks a single line end becomes a space and further ones stay.

Texts are collected backwards, as `done`, and `fuel` always exceeds the length of what is left.
-/

namespace ShaderFlatten.Yaml.Scalar

/-! ## Plain scalars -/

/-- The part of a plain scalar up to a blank or to what cannot be in it: a colon before a blank and,
between flow brackets, the flow characters. -/
def plainWord (flow : Bool) : Text → Text
  | [] => []
  | ch :: rest =>
    let next := rest.head?.getD endMark
    if isBlankOrEnd ch
        || (ch == ':' && (isBlankOrEnd next || (flow && [',', '[', ']', '\x7b', '\x7d'].contains next)))
        || (flow && [',', '?', '[', ']', '\x7b', '\x7d'].contains ch) then []
    else ch :: plainWord flow rest

/-- Spaces and line ends behind a line end, backwards; `none` if a document separator is met. -/
def plainBreaks (fuel : Nat) (breaks : Text) (c : Cursor) : Option Text × Cursor :=
  match fuel with
  | 0 => (some breaks, c)
  | fuel + 1 =>
    if c.peek == ' ' then plainBreaks fuel breaks c.advance
    else
      match c.break? with
      | none => (some breaks, c)
      | some (ch, c) => if c.atSeparator then (none, c) else plainBreaks fuel (ch :: breaks) c

/-- A line end and the line ends behind it, folded, backwards. -/
def fold (first : Char) (breaks : Text) : Text :=
  if first != '\n' then breaks ++ [first] else if breaks.isEmpty then [' '] else breaks

/-- What stands between two words of a plain scalar, backwards, and whether a line end is among it; nothing
if the scalar ends. -/
def plainSpaces (fuel : Nat) (c : Cursor) : Text × Cursor × Bool :=
  let blanks := c.run (· == ' ')
  let c := c.advanceBy blanks.length
  match c.break? with
  | none => (blanks, c, false)
  | some (first, c) =>
    if c.atSeparator then ([], c, true)
    else
      match plainBreaks fuel [] c with
      | (none, c) => ([], c, true)
      | (some breaks, c) => (fold first breaks, c, true)

/-- The words of a plain scalar; `spaces` stands behind the text so far.  The last component tells whether
a line end was the last thing skipped. -/
def plainWords (fuel : Nat) (flow : Bool) (indent : Int) (done spaces : Text) (crossed : Bool)
    (c : Cursor) : Text × Cursor × Bool :=
  match fuel with
  | 0 => (done, c, crossed)
  | fuel + 1 =>
    let word := if c.peek == '#' then [] else plainWord flow c.rest
    if word.isEmpty then (done, c, crossed)
    else
      let done := word.reverseAux (spaces ++ done)
      let (spaces, c, crossed) := plainSpaces fuel (c.advanceBy word.length)
      if spaces.isEmpty || c.peek == '#' || (!flow && (c.column : Int) < indent) then (done, c, crossed)
      else plainWords fuel flow indent done spaces crossed c

/-- A plain scalar in a block that is indented to `indent`. -/
def plain (fuel : Nat) (flow : Bool) (indent : Int) (c : Cursor) : Text × Cursor × Bool :=
  let (done, c, crossed) := plainWords fuel flow (indent + 1) [] [] false c
  (done.reverse, c, crossed)

/-! ## Quoted scalars -/

/-- The character that an escape letter stands for. -/
def escapeLetter? (c : Char) : Option Char :=
  let table : List (Char × Nat) :=
    [('0', 0), ('a', 7), ('b', 8), ('t', 9), ('\t', 9), ('n', 10), ('v', 11), ('f', 12), ('r', 13),
      ('e', 0x1B), (' ', 0x20), ('\"', 0x22), ('\\', 0x5C), ('/', 0x2F), ('N', 0x85), ('_', 0xA0),
      ('L', 0x2028), ('P', 0x2029)]
  (table.lookup c).map Char.ofNat

/-- The number of hexadecimal digits behind an escape letter. -/
def escapeWidth? : Char → Option Nat
  | 'x' => some 2
  | 'u' => some 4
  | 'U' => some 8
  | _ => none

/-- The character that stands for half of a pair of code units. -/
def replacement : Char := Char.ofNat 0xFFFD

/-- The character of an escaped code point. -/
def codeChar (digits : Text) : Except ReadError Char := do
  let values ← (digits.mapM Text.hexValue?).elim (throw .malformed) pure
  let code := values.foldl (fun n d => 16 * n + d) 0
  if code ≥ 0x110000 then throw (.noCharacter code)
  return if 0xD800 ≤ code && code < 0xE000 then replacement else Char.ofNat code

/-- Line ends behind a line end in a quoted scalar, backwards, with the blanks around them. -/
def quotedBreaks (fuel : Nat) (breaks : Text) (c : Cursor) : Except ReadError (Text × Cursor) :=
  match fuel with
  | 0 => .error .malformed
  | fuel + 1 =>
    if c.atSeparator then .error .malformed
    else
      let c := c.skip fun ch => ch == ' ' || ch == '\t'
      match c.break? with
      | none => .ok (breaks, c)
      | some (ch, c) => quotedBreaks fuel (ch :: breaks) c

/-- A backslash and what it escapes, backwards. -/
def escape (fuel : Nat) (c : Cursor) : Except ReadError (Text × Cursor) :=
  let c := c.advance
  match escapeLetter? c.peek with
  | some ch => .ok ([ch], c.advance)
  | none =>
    match escapeWidth? c.peek with
    | some width => do
      let digits := c.advance.rest.take width
      if digits.length < width then throw .malformed
      return ([← codeChar digits], c.advance.advanceBy width)
    | none =>
      match c.break? with
      | some (_, c) => quotedBreaks fuel [] c
      | none => .error .malformed

/-- The characters that end a run inside quotes. -/
def stopsQuoted (c : Char) : Bool := isBlankOrEnd c || c == '\'' || c == '\"' || c == '\\'

/-- The part of a quoted scalar up to a blank, a line end or the closing quote. -/
def quotedWord (fuel : Nat) (double : Bool) (done : Text) (c : Cursor) :
    Except ReadError (Text × Cursor) :=
  match fuel with
  | 0 => .error .malformed
  | fuel + 1 =>
    let word := c.run (!stopsQuoted ·)
    let done := word.reverseAux done
    let c := c.advanceBy word.length
    if !double && c.peek == '\'' && c.peekAt 1 == '\'' then
      quotedWord fuel double ('\'' :: done) (c.advanceBy 2)
    else if (double && c.peek == '\'') || (!double && (c.peek == '\"' || c.peek == '\\')) then
      quotedWord fuel double (c.peek :: done) c.advance
    else if double && c.peek == '\\' then do
      let (text, c) ← escape fuel c
      quotedWord fuel double (text ++ done) c
    else .ok (done, c)

/-- What stands between two words of a quoted scalar, backwards. -/
def quotedSpaces (fuel : Nat) (c : Cursor) : Except ReadError (Text × Cursor) :=
  let blanks := c.run fun ch => ch == ' ' || ch == '\t'
  let c := c.advanceBy blanks.length
  match c.break? with
  | some (first, c) => do
    let (breaks, c) ← quotedBreaks fuel [] c
    return (fold first breaks, c)
  | none => if c.peek == endMark then .error .malformed else .ok (blanks.reverse, c)

/-- The words of a quoted scalar up to the closing quote. -/
def quotedWords (fuel : Nat) (double : Bool) (done : Text) (c : Cursor) :
    Except ReadError (Text × Cursor) :=
  match fuel with
  | 0 => .error .malformed
  | fuel + 1 =>
    if c.peek == (if double then '\"' else '\'') then .ok (done.reverse, c.advance)
    else do
      let (spaces, c) ← quotedSpaces (fuel + 1) c
      let (done, c) ← quotedWord (fuel + 1) double (spaces ++ done) c
      quotedWords fuel double done c

/-- A quoted scalar, from its opening quote on. -/
def quoted (fuel : Nat) (double : Bool) (c : Cursor) : Except ReadError (Text × Cursor) := do
  let (done, c) ← quotedWord fuel double [] c.advance
  quotedWords fuel double done c

/-! ## Block scalars -/

/-- What becomes of the line ends at the end of a block. -/
inductive Chomping where
  | strip
  | clip
  | keep
  deriving DecidableEq, Repr

/-- A chomping indicator. -/
def chomping? : Char → Option Chomping
  | '+' => some .keep
  | '-' => some .strip
  | _ => none

/-- An indentation indicator: a digit other than zero. -/
def increment? (c : Char) : Except ReadError (Option Nat) :=
  if c == '0' then .error .malformed
  else if c.isDigit then .ok (some (c.toNat - '0'.toNat))
  else .ok none

/-- The header of a block: its two indicators in either order, and nothing else on the line. -/
def blockHeader (c : Cursor) : Except ReadError (Chomping × Option Nat × Cursor) := do
  let (chomp, increment, c) ←
    match chomping? c.peek with
    | some chomp => do
      let c := c.advance
      let increment ← increment? c.peek
      pure (chomp, increment, if increment.isSome then c.advance else c)
    | none => do
      match ← increment? c.peek with
      | some n =>
        let c := c.advance
        match chomping? c.peek with
        | some chomp => pure (chomp, some n, c.advance)
        | none => pure (.clip, some n, c)
      | none => pure (.clip, none, c)
  if !isSpaceOrEnd c.peek then throw .malformed
  let c := c.skipSpaces.skipComment
  if !isLineEnd c.peek then throw .malformed
  return (chomp, increment, c.skipBreak)

/-- The empty lines before a block, backwards, and the column to which they are indented at most. -/
def leadingLines (fuel : Nat) (breaks : Text) (deepest : Nat) (c : Cursor) : Text × Nat × Cursor :=
  match fuel with
  | 0 => (breaks, deepest, c)
  | fuel + 1 =>
    if c.peek == ' ' then
      let c := c.advance
      leadingLines fuel breaks (max deepest c.column) c
    else
      match c.break? with
      | some (ch, c) => leadingLines fuel (ch :: breaks) deepest c
      | none => (breaks, deepest, c)

/-- The empty lines inside a block that is indented to a column, backwards. -/
def blockBreaks (fuel : Nat) (indent : Nat) (breaks : Text) (c : Cursor) : Text × Cursor :=
  let c := c.skipIndent indent
  match fuel with
  | 0 => (breaks, c)
  | fuel + 1 =>
    match c.break? with
    | some (ch, c) => blockBreaks fuel indent (ch :: breaks) c
    | none => (breaks, c)

/-- The cursor stands at a line of the block. -/
def atBlockLine (indent : Nat) (c : Cursor) : Bool := c.column == indent && c.peek != endMark

/-- The lines of a block: their text, the last line end and the empty lines behind it, all backwards. -/
def blockLines (fuel : Nat) (folded : Bool) (indent : Nat) (done breaks : Text) (c : Cursor) :
    Text × Text × Text × Cursor :=
  match fuel with
  | 0 => (done, [], breaks, c)
  | fuel + 1 =>
    if atBlockLine indent c then
      let plainStart := !(c.peek == ' ' || c.peek == '\t')
      let line := c.run (!isLineEnd ·)
      let done := line.reverseAux (breaks ++ done)
      let c := c.advanceBy line.length
      let (last, c) := match c.break? with
        | some (ch, c) => ([ch], c)
        | none => ([], c)
      let (breaks, c) := blockBreaks fuel indent [] c
      if atBlockLine indent c then
        let join :=
          if folded && last == ['\n'] && plainStart && !(c.peek == ' ' || c.peek == '\t') then
            if breaks.isEmpty then [' '] else []
          else last
        blockLines fuel folded indent (join ++ done) breaks c
      else (done, last, breaks, c)
    else (done, [], breaks, c)

/-- A block scalar, from its indicator on, inside a block that is indented to `outer`. -/
def block (fuel : Nat) (folded : Bool) (outer : Int) (c : Cursor) :
    Except ReadError (Text × Cursor) := do
  let (chomp, increment, c) ← blockHeader c.advance
  let least := (max (outer + 1) 1).toNat
  let (indent, breaks, c) :=
    match increment with
    | none =>
      let (breaks, deepest, c) := leadingLines fuel [] 0 c
      (max least deepest, breaks, c)
    | some n =>
      let indent := least + n - 1
      let (breaks, c) := blockBreaks fuel indent [] c
      (indent, breaks, c)
  let (done, last, breaks, c) := blockLines fuel folded indent [] breaks c
  let tail :=
    match chomp with
    | .strip => []
    | .clip => last
    | .keep => breaks ++ last
  return ((tail ++ done).reverse, c)

end ShaderFlatten.Yaml.Scalar
