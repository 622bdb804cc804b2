import ShaderFlatten.Failure
import ShaderFlatten.Table
import ShaderFlatten.Value

/-!
# Conditional blocks

The blocks that are open at a line of a file, each with the truth of the branch that the line is in.  A
line is visible when all of them hold.  A step that fails leaves the blocks as they were.
-/

namespace ShaderFlatten

/-- The truths of the open blocks, innermost first. -/
structure OpenBlocks where
  truths : List Bool
  deriving DecidableEq, Repr

namespace OpenBlocks

/-- No block is open. -/
def none : OpenBlocks := ⟨[]⟩

/-- How many blocks are open. -/
def depth (b : OpenBlocks) : Nat := b.truths.length

/-- Every open block holds. -/
def visible (b : OpenBlocks) : Bool := b.truths.all id

/-- Open a block under a condition, which must be defined. -/
def openIf (b : OpenBlocks) (name : Text) (conditions : Table Value) : Except Cause OpenBlocks :=
  match conditions.get? (String.ofList name) with
  | .none => .error (.unknownCondition name)
  | some value => .ok ⟨value.isTrue :: b.truths⟩

/-- Go to the other branch of the innermost block. -/
def flip (b : OpenBlocks) : Except Cause OpenBlocks :=
  match b.truths with
  | [] => .error .strayElse
  | truth :: outer => .ok ⟨(!truth) :: outer⟩

/-- Close the innermost block. -/
def close (b : OpenBlocks) : Except Cause OpenBlocks :=
  match b.truths with
  | [] => .error .strayEndif
  | _ :: outer => .ok ⟨outer⟩

/-- At the end of a file no block may be open. -/
def finish (b : OpenBlocks) : Except Cause Unit :=
  if b.truths.isEmpty then .ok () else .error (.unclosedBlocks b.depth)

end OpenBlocks

end ShaderFlatten
