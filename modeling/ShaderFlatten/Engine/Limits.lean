/-!
# Limits

What a run may use: levels of imports, bytes of a file, characters of a line.  The last two may be
unlimited; the first has to be a number by the time it is needed, and is held below what the stack of the
run has room for.
-/

namespace ShaderFlatten

/-- How deep imports may nest. -/
inductive Depth where
  | levels (n : Int)
  /-- nothing has been set -/
  | unset
  /-- an option has been given without a value -/
  | emptied
  deriving DecidableEq, Repr

/-- The limits of a run. -/
structure Limits where
  importDepth : Depth
  fileBytes : Option Int
  lineLength : Option Int
  /-- how many calls the stack of the run holds -/
  stackFrames : Nat := 1000
  deriving DecidableEq, Repr

namespace Limits

/-- The limits that hold unless others are set. -/
def standard : Limits where
  importDepth := .levels 64
  fileBytes := some 8388608
  lineLength := some 4096

/-- How many calls of the stack go to one level of imports. -/
def framesPerLevel : Nat := 5

/-- The number of import levels that no setting exceeds. -/
def maxLevels (limits : Limits) : Nat := limits.stackFrames / framesPerLevel

/-- The import depth in force for a number that has been set. -/
def depthInForce (limits : Limits) (configured : Int) : Int := min configured limits.maxLevels

/-- How many levels of imports a run may open below its first file. -/
def levels (limits : Limits) : Nat :=
  match limits.importDepth with
  | .levels n => (limits.depthInForce n).toNat
  | .unset | .emptied => 0

end Limits

end ShaderFlatten
