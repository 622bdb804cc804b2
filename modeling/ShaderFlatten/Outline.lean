import ShaderFlatten.Directive.Line

/-!
# Outlines

An outline lists what a shader can ask for, from its source alone: the paths that it imports, the
conditions and constants that it names, hidden or not, and the lines that are not well formed.  Names
are taken only from lines that parse.  A stray `#else` or `#endif` is invalid, and so is the last line
of a source that leaves a block open.
-/

namespace ShaderFlatten

/-- What a shader can ask for. -/
structure Outline where
  imports : List Text
  conditions : List Text
  constants : List Text
  /-- the lines that are not well formed -/
  invalidLines : List NumberedLine
  /-- how many blocks are open at most -/
  maxNesting : Nat
  deriving DecidableEq, Repr

namespace Outline

/-- Nothing at all. -/
def empty : Outline := ⟨[], [], [], [], 0⟩

/-- No line is malformed. -/
def isValid (o : Outline) : Bool := o.invalidLines.isEmpty

/-- A list of names with one more name, unless it is there. -/
def addName (names : List Text) (name : Text) : List Text :=
  if name ∈ names then names else names ++ [name]

/-- Note a malformed line. -/
def addInvalid (o : Outline) (line : NumberedLine) : Outline :=
  { o with invalidLines := o.invalidLines ++ [line] }

/-- Take one line into account; `depth` blocks are open before it. -/
def addLine (o : Outline) (depth : Nat) (line : NumberedLine) : Outline × Nat :=
  match Line.kind line.2 with
  | .importLine =>
    match Line.importPath? line.2 with
    | .ok path => ({ o with imports := addName o.imports path }, depth)
    | .error _ => (o.addInvalid line, depth)
  | .ifLine =>
    match Line.condition? line.2 with
    | .ok name =>
      ({ o with
          conditions := addName o.conditions name
          maxNesting := max o.maxNesting (depth + 1) }, depth + 1)
    | .error _ => (o.addInvalid line, depth)
  | .elseLine =>
    match Line.bare? Line.elseMark line.2 with
    | .ok () => (if depth = 0 then o.addInvalid line else o, depth)
    | .error _ => (o.addInvalid line, depth)
  | .endifLine =>
    match Line.bare? Line.endifMark line.2 with
    | .ok () => (if depth = 0 then o.addInvalid line else o, depth - 1)
    | .error _ => (o.addInvalid line, depth)
  | .content =>
    match Line.placeholder? line.2 with
    | .ok (some found) => ({ o with constants := addName o.constants found.name }, depth)
    | .ok none => (o, depth)
    | .error _ => (o.addInvalid line, depth)

/-- Take the lines from a number on into account. -/
def addLines (o : Outline) (depth number : Nat) : List Text → Outline × Nat
  | [] => (o, depth)
  | line :: rest =>
    let (o, depth) := o.addLine depth (number, line)
    addLines o depth (number + 1) rest

/-- The outline of a source. -/
def ofSource (source : Text) : Outline :=
  let lines := Text.lines source
  let (o, depth) := addLines empty 0 1 lines
  if depth = 0 then o else o.addInvalid (lines.length, lines.getLast?.getD [])

end Outline

end ShaderFlatten
