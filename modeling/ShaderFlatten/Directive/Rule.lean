import ShaderFlatten.Text.Blank
import ShaderFlatten.Text.Quoted

/-!
# The rules of the directive grammar

A rule looks at a line from an offset on.  It yields the text that it took and the offset just past it,
or a mismatch that names what was expected and where.  No rule goes back on what another one took.

    an identifier is    (underscores* word), one to sixteen times
    a path segment is   (dots "/")? underscores* word "/"?
    a path to import is "/"? segment* word? ".wgsl", with at most sixteen segments

A word is a run of ASCII letters and digits.  The offset may lie past the end of the line.
-/

namespace ShaderFlatten

/-- What a rule expected. -/
inductive Expected where
  | literal (t : Text)
  | endOfLine
  | identifier
  | pathSegment
  | whitespace
  deriving DecidableEq, Repr

/-- The wording of an expectation. -/
def Expected.message : Expected → String
  | .literal t => t.quote
  | .endOfLine => "end of line"
  | .identifier => "identifier"
  | .pathSegment => "path segment"
  | .whitespace => "whitespace"

/-- A rule did not apply to a line at an offset. -/
structure Mismatch where
  expected : Expected
  line : Text
  offset : Nat
  deriving DecidableEq, Repr

/-- The wording of a mismatch; columns count from one. -/
def Mismatch.message (m : Mismatch) : String :=
  "expected " ++ m.expected.message ++ " at column " ++ decimal (m.offset + 1 : Nat) ++ ": "
    ++ m.line.quote

namespace Rule

/-- What a rule makes of a line at an offset: the text that it took and the offset past it. -/
abbrev Result := Except Mismatch (Text × Nat)

/-- The greatest number of units in an identifier and of segments in an import path. -/
def maxRepeat : Nat := 16

/-- The end of every import path. -/
def extension : Text := ['.', 'w', 'g', 's', 'l']

/-! ## Units, on the text that remains -/

/-- The longest run of at most `n` units, each made of underscores and a word. -/
def nameUnits : Nat → Text → Text
  | 0, _ => []
  | n + 1, s =>
    let underscores := s.takeWhile (· == '_')
    let rest := s.dropWhile (· == '_')
    let word := rest.takeWhile Text.isWord
    if word.isEmpty then []
    else underscores ++ word ++ nameUnits n (rest.dropWhile Text.isWord)

/-- Dots and the slash after them, or nothing. -/
def dotsSlash (s : Text) : Text :=
  match s.takeWhile (· == '.'), s.dropWhile (· == '.') with
  | [], _ => []
  | dots, '/' :: _ => dots ++ ['/']
  | _, _ => []

/-- A single slash, or nothing. -/
def slash : Text → Text
  | '/' :: _ => ['/']
  | _ => []

/-- What a path segment may start with: dots with their slash, and underscores. -/
def segmentLead (s : Text) : Text :=
  let dots := dotsSlash s
  dots ++ (s.drop dots.length).takeWhile (· == '_')

/-- A path segment at the front of a text, or nothing if there is none. -/
def segment (s : Text) : Text :=
  let lead := segmentLead s
  let rest := s.drop lead.length
  let word := rest.takeWhile Text.isWord
  if word.isEmpty then [] else lead ++ word ++ slash (rest.dropWhile Text.isWord)

/-- The longest run of at most `n` path segments. -/
def segments : Nat → Text → Text
  | 0, _ => []
  | n + 1, s =>
    let first := segment s
    if first.isEmpty then [] else first ++ segments n (s.drop first.length)

/-- All of an import path before its extension. -/
def pathStem (s : Text) : Text :=
  let root := slash s
  let steps := root ++ segments maxRepeat (s.drop root.length)
  steps ++ (s.drop steps.length).takeWhile Text.isWord

/-! ## Rules, on a line and an offset -/

/-- A fixed text.  Past the end of the line not even the empty one is found. -/
def literal (t line : Text) (offset : Nat) : Result :=
  if offset ≤ line.length ∧ t.isPrefixOf (line.drop offset) then .ok (t, offset + t.length)
  else .error ⟨.literal t, line, offset⟩

/-- Blanks up to the end of the line, which is where the offset then lies. -/
def endOfLine (line : Text) (offset : Nat) : Result :=
  let rest := line.drop offset
  if rest.all Text.isBlank then .ok (rest, line.length) else .error ⟨.endOfLine, line, offset⟩

/-- Spaces and tabs, at least one. -/
def gap (line : Text) (offset : Nat) : Result :=
  let blanks := (line.drop offset).takeWhile Text.isHorizontal
  if blanks.isEmpty then .error ⟨.whitespace, line, offset⟩ else .ok (blanks, offset + blanks.length)

/-- A name: the longest run of at most `maxRepeat` units. -/
def identifier (line : Text) (offset : Nat) : Result :=
  let name := nameUnits maxRepeat (line.drop offset)
  if name.isEmpty then .error ⟨.identifier, line, offset⟩ else .ok (name, offset + name.length)

/-- One step of a path; without a word the mismatch lies where the word should be. -/
def pathSegment (line : Text) (offset : Nat) : Result :=
  let rest := line.drop offset
  let found := segment rest
  if found.isEmpty then .error ⟨.pathSegment, line, offset + (segmentLead rest).length⟩
  else .ok (found, offset + found.length)

/-- A path to import.  The extension is looked for where the segments and the last word end; an offset
past the end of the line counts as its end. -/
def importPath (line : Text) (offset : Nat) : Result := do
  let rest := line.drop offset
  let stem := pathStem rest
  let (_, stop) ← literal extension line (min (offset + stem.length) line.length)
  return (rest.take (stop - offset), stop)

end Rule

end ShaderFlatten
