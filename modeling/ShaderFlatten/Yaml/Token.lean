import ShaderFlatten.Yaml.Scalar

/-!
# YAML tokens

A YAML text is cut into tokens.  Blocks are told by indentation, so that the lexer adds tokens for their
starts and ends.  A mapping key needs no mark of its own: what could be one is remembered, and when a
colon follows on the same line, the marks are inserted where it began.

    Token.scan t    the tokens of `t`

A text that cannot be cut to its end has tokens as well: those in front of the first one that could still
have become a key, and then the failure.
-/

namespace ShaderFlatten.Yaml

/-- A tag as written: a handle, if any, and a suffix. -/
structure TagMark where
  handle : Option Text
  suffix : Text
  deriving DecidableEq, Repr

/-- A directive line. -/
inductive Directive where
  | version (major : Nat)
  | tagHandle (handle expansion : Text)
  | other
  deriving DecidableEq, Repr

/-- A token. -/
inductive Token where
  | directive (d : Directive)
  | documentStart
  | documentEnd
  | streamEnd
  | blockSequenceStart
  | blockMappingStart
  | blockEnd
  | flowSequenceStart
  | flowSequenceEnd
  | flowMappingStart
  | flowMappingEnd
  | blockEntry
  | flowEntry
  | key
  | value
  | alias (name : Text)
  | anchor (name : Text)
  | tag (mark : TagMark)
  | scalar (plain : Bool) (text : Text)
  /-- why the text cannot be cut any further -/
  | failure (error : ReadError)
  deriving DecidableEq, Repr

/-! ## Names, tags and directives -/

/-- The characters of names of anchors, handles and directives. -/
def isNameChar (c : Char) : Bool := c.isAlphanum || c == '-' || c == '_'

/-- The name of an anchor or alias, behind its indicator. -/
def anchorName (c : Cursor) : Except ReadError (Text × Cursor) :=
  let name := c.run isNameChar
  let c := c.advanceBy name.length
  if name.isEmpty then .error .malformed
  else if isBlankOrEnd c.peek || ['?', ':', ',', ']', '\x7d', '%', '@', Char.ofNat 0x60].contains c.peek
  then .ok (name, c)
  else .error .malformed

/-- The characters of a tag. -/
def isTagChar (c : Char) : Bool := c.isAlphanum || "-;/?:@&=+$,_.!~*'()[]%".toList.contains c

/-- The bytes that percent escapes spell. -/
def percentBytes (fuel : Nat) (c : Cursor) : Except ReadError (List UInt8 × Cursor) :=
  match fuel with
  | 0 => .error .malformed
  | fuel + 1 =>
    if c.peek == '%' then
      match Text.hexValue? (c.peekAt 1), Text.hexValue? (c.peekAt 2) with
      | some a, some b => do
        let (more, c) ← percentBytes fuel (c.advanceBy 3)
        return (UInt8.ofNat (16 * a + b) :: more, c)
      | _, _ => .error .malformed
    else .ok ([], c)

/-- The text of a tag, which is not empty, with percent escapes for the bytes of other characters; `done`
holds the text so far, backwards. -/
def tagText (fuel : Nat) (done : Text) (c : Cursor) : Except ReadError (Text × Cursor) :=
  match fuel with
  | 0 => .error .malformed
  | fuel + 1 =>
    if c.peek == '%' then do
      let (bytes, c) ← percentBytes (fuel + 1) c
      match String.fromUTF8? ⟨bytes.toArray⟩ with
      | some s => tagText fuel (s.toList.reverseAux done) c
      | none => throw .malformed
    else if isTagChar c.peek then tagText fuel (c.peek :: done) c.advance
    else if done.isEmpty then .error .malformed
    else .ok (done.reverse, c)

/-- A handle: an exclamation mark before a space, or two with a name or nothing between them. -/
def tagHandle (c : Cursor) : Except ReadError (Text × Cursor) :=
  if c.peek != '!' then .error .malformed
  else if c.peekAt 1 == ' ' then .ok (['!'], c.advance)
  else
    let name := (c.advance).run isNameChar
    if c.peekAt (name.length + 1) == '!' then
      .ok ('!' :: name ++ ['!'], c.advanceBy (name.length + 2))
    else .error .malformed

/-- A tag, from its exclamation mark on. -/
def tagMark (fuel : Nat) (c : Cursor) : Except ReadError (TagMark × Cursor) := do
  let (mark, c) ←
    if c.peekAt 1 == '<' then do
      let (suffix, c) ← tagText fuel [] (c.advanceBy 2)
      if c.peek != '>' then throw .malformed
      pure (⟨none, suffix⟩, c.advance)
    else if isBlankOrEnd (c.peekAt 1) then pure (⟨none, ['!']⟩, c.advance)
    else do
      let word := c.advance.run (!isSpaceOrEnd ·)
      let (handle, c) ← if word.contains '!' then tagHandle c else pure (['!'], c.advance)
      let (suffix, c) ← tagText fuel [] c
      pure (⟨some handle, suffix⟩, c)
  if isSpaceOrEnd c.peek then return (mark, c) else throw .malformed

/-- A number of a version. -/
def versionNumber (c : Cursor) : Except ReadError (Nat × Cursor) :=
  let digits := c.run Char.isDigit
  if digits.isEmpty then .error .malformed
  else if Numeral.maxDigits < digits.length then .error (.digits (.reading digits.length))
  else .ok (Numeral.digitsValue digits, c.advanceBy digits.length)

/-- The arguments of a version directive. -/
def versionDirective (c : Cursor) : Except ReadError (Directive × Cursor) := do
  let (major, c) ← versionNumber c.skipSpaces
  if c.peek != '.' then throw .malformed
  let (_, c) ← versionNumber c.advance
  if !isSpaceOrEnd c.peek then throw .malformed
  return (.version major, c)

/-- The arguments of a handle directive. -/
def handleDirective (fuel : Nat) (c : Cursor) : Except ReadError (Directive × Cursor) := do
  let (handle, c) ← tagHandle c.skipSpaces
  if c.peek != ' ' then throw .malformed
  let (expansion, c) ← tagText fuel [] c.skipSpaces
  if !isSpaceOrEnd c.peek then throw .malformed
  return (.tagHandle handle expansion, c)

/-- A directive line, from its percent sign on. -/
def directiveLine (fuel : Nat) (c : Cursor) : Except ReadError (Directive × Cursor) := do
  let c := c.advance
  let name := c.run isNameChar
  let c := c.advanceBy name.length
  if name.isEmpty || !isSpaceOrEnd c.peek then throw .malformed
  let (d, c) ←
    if name = "YAML".toList then versionDirective c
    else if name = "TAG".toList then handleDirective fuel c
    else pure (.other, c.skip (!isLineEnd ·))
  let c := c.skipSpaces.skipComment
  if !isLineEnd c.peek then throw .malformed
  return (d, c.skipBreak)

/-! ## The lexer -/

/-- Something that could turn out to be a key. -/
structure PendingKey where
  /-- the place among the tokens where its marks would be inserted -/
  place : Nat
  /-- it stands where only a key can stand -/
  required : Bool
  index : Nat
  line : Nat
  column : Nat

/-- The state of the lexer. -/
structure Lexer where
  cursor : Cursor
  /-- the tokens so far, the last one first -/
  tokens : List Token
  /-- the number of tokens so far -/
  count : Nat
  /-- how many flow brackets are open -/
  flow : Nat
  /-- the column of the current block, or -1 outside every block -/
  indent : Int
  /-- the columns of the blocks around the current one, innermost first -/
  indents : List Int
  keyAllowed : Bool
  /-- what could be a key, by the number of open flow brackets -/
  pending : List (Nat × PendingKey)

namespace Lexer

/-- The lexer at the start of a text; a byte order mark in front is skipped. -/
def start (t : Text) : Lexer :=
  let c := Cursor.start t
  ⟨if c.peek == Cursor.byteOrderMark then c.advance else c, [], 0, 0, -1, [], true, []⟩

/-- Insert a token behind so many tokens. -/
def insert (x : Lexer) (place : Nat) (t : Token) : Lexer :=
  let behind := x.count - place
  { x with tokens := x.tokens.take behind ++ t :: x.tokens.drop behind, count := x.count + 1 }

/-- Add a token. -/
def push (x : Lexer) (t : Token) : Lexer := { x with tokens := t :: x.tokens, count := x.count + 1 }

/-- Go on by some characters. -/
def advanceBy (x : Lexer) (n : Nat) : Lexer := { x with cursor := x.cursor.advanceBy n }

/-- Skip spaces, comments and line ends.  A line end outside flow brackets allows a key. -/
def skipToToken (fuel : Nat) (x : Lexer) : Lexer :=
  let c := x.cursor.skipSpaces.skipComment
  match fuel, c.break? with
  | fuel + 1, some (_, c) =>
    skipToToken fuel { x with cursor := c, keyAllowed := x.keyAllowed || x.flow == 0 }
  | _, _ => { x with cursor := c }

/-- What can no longer be a key: it must end on its line and within 1024 characters. -/
def isStale (x : Lexer) (k : PendingKey) : Bool :=
  k.line != x.cursor.line || 1024 < x.cursor.index - k.index

/-- Forget what can no longer be a key. -/
def dropStale (x : Lexer) : Except ReadError Lexer :=
  if x.pending.any fun (_, k) => x.isStale k && k.required then .error .malformed
  else .ok { x with pending := x.pending.filter fun (_, k) => !x.isStale k }

/-- Forget what could be a key at the current flow level. -/
def dropPending (x : Lexer) : Except ReadError Lexer :=
  match x.pending.lookup x.flow with
  | none => .ok x
  | some k =>
    if k.required then .error .malformed
    else .ok { x with pending := x.pending.filter (·.1 != x.flow) }

/-- Remember that the next token could be a key. -/
def savePending (x : Lexer) : Except ReadError Lexer :=
  if x.keyAllowed then do
    let required := x.flow == 0 && x.indent == (x.cursor.column : Int)
    let x ← x.dropPending
    let c := x.cursor
    let k : PendingKey := ⟨x.count, required, c.index, c.line, c.column⟩
    return { x with pending := (x.flow, k) :: x.pending }
  else .ok x

/-- Close the blocks that are indented deeper than a column. -/
def closeBlocks (column : Int) (x : Lexer) : Lexer :=
  if x.flow != 0 then x
  else go x.indents.length x
where
  /-- Close at most so many blocks. -/
  go : Nat → Lexer → Lexer
    | 0, x => x
    | n + 1, x =>
      if column < x.indent then
        match x.indents with
        | [] => x
        | outer :: rest => go n ({ x with indent := outer, indents := rest }.push .blockEnd)
      else x

/-- Start a block at a column, unless one is open there. -/
def openBlock (x : Lexer) (column : Nat) : Option Lexer :=
  if x.indent < (column : Int) then
    some { x with indent := column, indents := x.indent :: x.indents }
  else none

/-- End all blocks before something that belongs to no block. -/
def endBlocks (x : Lexer) : Except ReadError Lexer := do
  let x ← (x.closeBlocks (-1)).dropPending
  return { x with keyAllowed := false }

/-- A document marker. -/
def separator (t : Token) (x : Lexer) : Except ReadError Lexer := do
  return ((← x.endBlocks).push t).advanceBy 3

/-- An opening flow bracket. -/
def openFlow (t : Token) (x : Lexer) : Except ReadError Lexer := do
  let x ← x.savePending
  return ({ x with flow := x.flow + 1, keyAllowed := true }.push t).advanceBy 1

/-- A closing flow bracket, which needs an open one. -/
def closeFlow (t : Token) (x : Lexer) : Except ReadError Lexer := do
  let x ← x.dropPending
  if x.flow == 0 then throw .malformed
  return ({ x with flow := x.flow - 1, keyAllowed := false }.push t).advanceBy 1

/-- A comma between flow items. -/
def flowComma (x : Lexer) : Except ReadError Lexer := do
  let x ← { x with keyAllowed := true }.dropPending
  return (x.push .flowEntry).advanceBy 1

/-- Start a block with a token where the indentation asks for it; outside flow brackets a key must be
allowed. -/
def startBlock (t : Token) (x : Lexer) : Except ReadError Lexer :=
  if x.flow != 0 then .ok x
  else if !x.keyAllowed then .error .malformed
  else .ok (((x.openBlock x.cursor.column).map (·.push t)).getD x)

/-- A dash before an item of a block sequence. -/
def dash (x : Lexer) : Except ReadError Lexer := do
  let x ← x.startBlock .blockSequenceStart
  let x ← { x with keyAllowed := true }.dropPending
  return (x.push .blockEntry).advanceBy 1

/-- A question mark before a key. -/
def questionMark (x : Lexer) : Except ReadError Lexer := do
  let x ← x.startBlock .blockMappingStart
  let x ← { x with keyAllowed := x.flow == 0 }.dropPending
  return (x.push .key).advanceBy 1

/-- A colon before a value.  What could be a key in front of it is one. -/
def colon (x : Lexer) : Except ReadError Lexer := do
  match x.pending.lookup x.flow with
  | some k =>
    let x := { x with pending := x.pending.filter (·.1 != x.flow) }
    let x := x.insert k.place .key
    let x :=
      if x.flow == 0 then ((x.openBlock k.column).map (·.insert k.place .blockMappingStart)).getD x
      else x
    return ({ x with keyAllowed := false }.push .value).advanceBy 1
  | none =>
    let x ← x.startBlock .blockMappingStart
    let x ← { x with keyAllowed := x.flow == 0 }.dropPending
    return (x.push .value).advanceBy 1

/-- Something that could be a key: it is read from the cursor. -/
def atom (read : Cursor → Except ReadError (Token × Cursor)) (x : Lexer) : Except ReadError Lexer := do
  let x ← x.savePending
  let (t, c) ← read x.cursor
  return { x with keyAllowed := false, cursor := c }.push t

/-- A block scalar. -/
def blockScalar (fuel : Nat) (folded : Bool) (x : Lexer) : Except ReadError Lexer := do
  let x ← { x with keyAllowed := true }.dropPending
  let (text, c) ← Scalar.block fuel folded x.indent x.cursor
  return { x with cursor := c }.push (.scalar false text)

/-- A plain scalar; a key is allowed behind it if it ended at a line end. -/
def plainScalar (fuel : Nat) (x : Lexer) : Except ReadError Lexer := do
  let x ← x.savePending
  let (text, c, crossed) := Scalar.plain fuel (x.flow != 0) x.indent x.cursor
  return { x with keyAllowed := crossed, cursor := c }.push (.scalar true text)

/-- The characters that start no plain scalar by themselves. -/
def isIndicator (c : Char) : Bool :=
  ("-?:,[]#&*!|>'\"%@".toList ++ ['\x7b', '\x7d', Char.ofNat 0x60]).contains c

/-- A plain scalar may start here: no indicator stands here, or one that a further character turns into
an ordinary one. -/
def atPlain (x : Lexer) : Bool :=
  let c := x.cursor.peek
  !(isBlankOrEnd c || isIndicator c)
    || (!isBlankOrEnd (x.cursor.peekAt 1) && (c == '-' || (x.flow == 0 && (c == '?' || c == ':'))))

/-- The next token, which is not the end of the text; `fuel` exceeds the length of the rest. -/
def token (fuel : Nat) (x : Lexer) : Except ReadError Lexer :=
  let c := x.cursor
  let ch := c.peek
  let alone := isBlankOrEnd (c.peekAt 1)
  if ch == '%' && c.column == 0 then do
    let x ← x.endBlocks
    let (d, c) ← directiveLine fuel c
    return { x with cursor := c }.push (.directive d)
  else if c.column == 0 && c.atSeparator then
    x.separator (if ch == '-' then .documentStart else .documentEnd)
  else if ch == '[' then x.openFlow .flowSequenceStart
  else if ch == '\x7b' then x.openFlow .flowMappingStart
  else if ch == ']' then x.closeFlow .flowSequenceEnd
  else if ch == '\x7d' then x.closeFlow .flowMappingEnd
  else if ch == ',' then x.flowComma
  else if ch == '-' && alone then x.dash
  else if ch == '?' && (x.flow != 0 || alone) then x.questionMark
  else if ch == ':' && (x.flow != 0 || alone) then x.colon
  else if ch == '*' then x.atom fun c => do
    let (name, c) ← anchorName c.advance
    return (.alias name, c)
  else if ch == '&' then x.atom fun c => do
    let (name, c) ← anchorName c.advance
    return (.anchor name, c)
  else if ch == '!' then x.atom fun c => do
    let (mark, c) ← tagMark fuel c
    return (.tag mark, c)
  else if ch == '|' && x.flow == 0 then x.blockScalar fuel false
  else if ch == '>' && x.flow == 0 then x.blockScalar fuel true
  else if ch == '\'' || ch == '\"' then x.atom fun c => do
    let (text, c) ← Scalar.quoted fuel (ch == '\"') c
    return (.scalar false text, c)
  else if x.atPlain then x.plainScalar fuel
  else .error .malformed

/-- The next step: one more token, or nothing at the end of the text. -/
def step (fuel : Nat) (x : Lexer) : Except ReadError (Lexer ⊕ Lexer) := do
  let x ← (x.skipToToken fuel).dropStale
  let x := x.closeBlocks x.cursor.column
  if x.cursor.rest.isEmpty then return .inr ((← x.endBlocks).push .streamEnd)
  else return .inl (← x.token fuel)

/-- The tokens, the last one first, that do not depend on what follows: those in front of the first one
that could still become a key. -/
def settled (x : Lexer) : List Token :=
  let places := (x.pending.filter fun (_, k) => !x.isStale k).map fun (_, k) => k.place
  match places.min? with
  | none => x.tokens
  | some place => x.tokens.drop (x.count - place)

/-- All tokens; `fuel` exceeds the length of the rest, and every token takes at least one character. -/
def tokensFrom (fuel : Nat) (x : Lexer) : List Token :=
  match fuel with
  | 0 => x.tokens.reverse
  | fuel + 1 =>
    match x.step (fuel + 1) with
    | .ok (.inl x) => tokensFrom fuel x
    | .ok (.inr x) => x.tokens.reverse
    | .error e => (Token.failure e :: x.settled).reverse

end Lexer

/-- The tokens of a text. -/
def Token.scan (t : Text) : List Token := (Lexer.start t).tokensFrom (t.length + 2)

end ShaderFlatten.Yaml
