import ShaderFlatten.Text.Basic

/-!
# Paths

A path is an anchor and the names below it.  Reading one drops empty names and single dots; double dots
stay, because what they denote depends on links.

    Path.ofString (Path.toString p) = p    for every `p` that is read from a string
-/

namespace ShaderFlatten

/-- Where a path starts.  Exactly two leading slashes are an anchor of their own. -/
inductive Anchor where
  | relative
  | root
  | doubleRoot
  deriving DecidableEq, Repr

/-- The text of an anchor. -/
def Anchor.text : Anchor → String
  | .relative => ""
  | .root => "/"
  | .doubleRoot => "//"

/-- A path as a user writes it. -/
structure Path where
  anchor : Anchor
  parts : List String
  deriving DecidableEq, Repr

/-- A name can be written if it holds no zero character. -/
def isNameable (name : String) : Bool := !name.toList.contains (Char.ofNat 0)

namespace Path

/-- The names of a path text, with double dots and without what means nothing. -/
def splitNames (s : String) : List String :=
  ((Text.split '/' s.toList).map String.ofList).filter fun name => name != "" && name != "."

/-- The anchor that a number of leading slashes stands for. -/
def anchorOf (slashes : Nat) : Anchor :=
  if slashes = 0 then .relative else if slashes = 2 then .doubleRoot else .root

/-- Read a path. -/
def ofString (s : String) : Path :=
  ⟨anchorOf (s.toList.takeWhile (· == '/')).length, splitNames s⟩

/-- The text of a path; the empty relative path is a single dot. -/
def toString (p : Path) : String :=
  if p.anchor = .relative ∧ p.parts = [] then "."
  else p.anchor.text ++ "/".intercalate p.parts

/-- A path that does not depend on the working directory. -/
def isAbsolute (p : Path) : Bool := p.anchor != .relative

/-- Every name of the path can be written. -/
def isNameable (p : Path) : Bool := p.parts.all ShaderFlatten.isNameable

/-- The last name of a path, or the empty text. -/
def name (p : Path) : String := p.parts.getLast?.getD ""

/-- The path without its last name. -/
def parent (p : Path) : Path := { p with parts := p.parts.dropLast }

/-- A path below another one; an absolute path stays as it is. -/
def join (p q : Path) : Path :=
  if q.isAbsolute then q else { p with parts := p.parts ++ q.parts }

/-- The last name from its last dot on, unless that dot is its first or last character. -/
def suffix (p : Path) : String :=
  let chars := p.name.toList
  let tail := chars.reverse.takeWhile (· != '.')
  if tail.length + 1 < chars.length ∧ tail ≠ [] then
    String.ofList (chars.drop (chars.length - tail.length - 1))
  else ""

end Path

/-- A place in a file tree: the names that lead to it from the root. -/
abbrev Place := List String

/-- The text of a place. -/
def Place.text (p : Place) : String := "/" ++ "/".intercalate p

/-- A place as a path. -/
def Place.path (p : Place) : Path := ⟨.root, p⟩

end ShaderFlatten
