import ShaderFlatten.Engine.Ledger
import ShaderFlatten.Tree.Resolve

/-!
# Finding shaders

The shaders under a folder are the entries below it whose names end in the shader extension, wherever
they lead.  Linked folders are not entered.  Folders may be nested to any depth, as the search is no recursion,
and a path below a folder may be of any length.  The matches of each folder are taken in the order of their path
components, resolved, and listed once.
-/

namespace ShaderFlatten

/-- The end of a shader's file name. -/
def shaderExtension : Text := ['.', 'w', 'g', 's', 'l']

/-- A file name of a shader. -/
def isShaderName (name : String) : Bool := shaderExtension.isSuffixOf name.toList

/-- The order of places: by the first component that differs. -/
def Place.le : Place → Place → Bool
  | [], _ => true
  | _ :: _, [] => false
  | a :: p, b :: q => if a = b then Place.le p q else decide (a < b)

namespace FileTree

/-- The names that lead from a place to an entry below it. -/
def below? (base place : Place) : Option Place :=
  if base.isPrefixOf place && base.length < place.length then some (place.drop base.length) else none

/-- The shaders below a place, by the names that lead to them, in order. -/
def shadersBelow (tree : FileTree) (base : Place) : List Place :=
  let found := tree.entries.filterMap fun (place, _) => below? base place
  (found.filter fun names => isShaderName (names.getLast?.getD "")).mergeSort Place.le

end FileTree

namespace Disk

/-- The matches below a folder that has been asked for, in order; nothing if the path leads to none. -/
def matchesBelow? (disk : Disk) (folder : Path) : Except Fault (Option (List Path)) := do
  if ← disk.isFolder folder then
    let (base, _) ← disk.stat folder
    return some ((disk.tree.shadersBelow base).map fun names =>
      { folder with parts := folder.parts ++ names })
  else return none

/-- A listing of shaders with one more match, unless it is listed or leads to no file. -/
def addShader (disk : Disk) (found : List Place) (path : Path) : Except Fault (List Place) := do
  let place ← disk.resolve? path
  if place ∈ found then return found
  else if ← disk.isFile place.path then return found ++ [place]
  else return found

/-- The warning about a path that is no folder. -/
def skipRecord (folder : Path) : LogRecord :=
  ⟨.warning, logSource.batch, "Skipping " ++ folder.toString ++ ": not a directory"⟩

/-- List the shaders below folders after those found before, with the log. -/
def findShadersFrom (disk : Disk) (found : List Place) (log : List LogRecord) :
    List Path → Except Fault (List Place) × List LogRecord
  | [] => (.ok found, log)
  | folder :: rest =>
    match disk.matchesBelow? folder with
    | .error fault => (.error fault, log)
    | .ok none => findShadersFrom disk found (log ++ [skipRecord folder]) rest
    | .ok (some paths) =>
      match paths.foldlM disk.addShader found with
      | .ok found => findShadersFrom disk found log rest
      | .error fault => (.error fault, log)

/-- The shaders below folders, each once, with the log. -/
def findShaders (disk : Disk) (folders : List Path) : Except Fault (List Place) × List LogRecord :=
  disk.findShadersFrom [] [] folders

end Disk

end ShaderFlatten
