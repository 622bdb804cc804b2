import ShaderFlatten.Directive.Rule

/-!
# Lines

A line is an import, one of three conditional directives, or content.  Only its first token decides
which, and the rest is checked by the parser of that kind:

    `Line.importPath?`    the path of `#import "path"`
    `Line.condition?`     the name of `#if name`
    `Line.bare?`          `#else` and `#endif`
    `Line.placeholder?`   the first `#(name)` of a content line
-/

namespace ShaderFlatten

/-- How a line is handled. -/
inductive LineKind where
  | importLine
  | ifLine
  | elseLine
  | endifLine
  | content
  deriving DecidableEq, Repr

/-- The word for a kind of line. -/
def LineKind.word : LineKind → String
  | .importLine => "import"
  | .ifLine => "if"
  | .elseLine => "else"
  | .endifLine => "endif"
  | .content => "content"

/-- A line of a file: its number, counted from one, and its text. -/
abbrev NumberedLine := Nat × Text

/-- A reference `#(name)` in a line: `start` is the offset of `#` and `stop` the one just past `)`. -/
structure Placeholder where
  name : Text
  start : Nat
  stop : Nat
  deriving DecidableEq, Repr

namespace Line

/-- The mark of an import line. -/
def importMark : Text := ['#', 'i', 'm', 'p', 'o', 'r', 't']

/-- The mark of a line that opens a block. -/
def ifMark : Text := ['#', 'i', 'f']

/-- The mark of a line that turns a block over. -/
def elseMark : Text := ['#', 'e', 'l', 's', 'e']

/-- The mark of a line that closes a block. -/
def endifMark : Text := ['#', 'e', 'n', 'd', 'i', 'f']

/-- What may not follow the mark of a conditional directive. -/
def isNameChar (c : Char) : Bool := Text.isWord c || c == '_'

/-- A text starts with a mark that no further letter, digit or underscore extends. -/
def startsWithMark (mark s : Text) : Bool :=
  mark.isPrefixOf s &&
    match s.drop mark.length with
    | [] => true
    | c :: _ => !isNameChar c

/-- The kind of a line, from its first token after spaces and tabs.  The import mark needs no end. -/
def kind (line : Text) : LineKind :=
  let s := line.dropWhile Text.isHorizontal
  if importMark.isPrefixOf s then .importLine
  else if startsWithMark ifMark s then .ifLine
  else if startsWithMark elseMark s then .elseLine
  else if startsWithMark endifMark s then .endifLine
  else .content

/-- The number of spaces and tabs in front of a line. -/
def indent (line : Text) : Nat := (line.takeWhile Text.isHorizontal).length

/-- The path of an import line, as written. -/
def importPath? (line : Text) : Except Mismatch Text := do
  let (_, offset) ← Rule.literal importMark line (indent line)
  let blanks := (line.drop offset).takeWhile Text.isHorizontal
  let (_, offset) ← Rule.literal ['\"'] line (offset + blanks.length)
  let (path, offset) ← Rule.importPath line offset
  let (_, offset) ← Rule.literal ['\"'] line offset
  let _ ← Rule.endOfLine line offset
  return path

/-- The condition of a line that opens a block. -/
def condition? (line : Text) : Except Mismatch Text := do
  let (_, offset) ← Rule.literal ifMark line (indent line)
  let (_, offset) ← Rule.gap line offset
  let (name, offset) ← Rule.identifier line offset
  let _ ← Rule.endOfLine line offset
  return name

/-- Check a line that holds a mark and nothing else. -/
def bare? (mark line : Text) : Except Mismatch Unit := do
  let (_, offset) ← Rule.literal mark line (indent line)
  let _ ← Rule.endOfLine line offset

/-- The first placeholder of a line, or none if the line has no `#`.  A `#` that starts no placeholder
is a mismatch. -/
def placeholder? (line : Text) : Except Mismatch (Option Placeholder) :=
  let start := (line.takeWhile (· != '#')).length
  if start = line.length then .ok none
  else do
    let (_, offset) ← Rule.literal ['#', '('] line start
    let (name, offset) ← Rule.identifier line offset
    let (_, stop) ← Rule.literal [')'] line offset
    return some ⟨name, start, stop⟩

end Line

end ShaderFlatten
