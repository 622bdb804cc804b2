import ShaderFlatten.Tree.Basic

/-!
# Changing a file tree

Writing a file follows links and may create the file, but not the folder it lies in.  Folders are made
together with the folders above them.
-/

namespace ShaderFlatten.Disk

/-- Put bytes into the file that a path leads to, and create it if it is missing. -/
def writeBytes (disk : Disk) (path : Path) (content : ByteArray) : Except Fault Disk :=
  match disk.locate .creation path with
  | .error fault => .error fault
  | .ok (_, some .folder) => .error (.system .isDirectory path.toString)
  | .ok (place, _) => .ok { disk with tree := disk.tree.put place (.file content) }

/-- Make one folder, at a place where nothing stands. -/
def makeFolder (disk : Disk) (path : Path) : Except Fault Disk :=
  match disk.locate .entry path with
  | .error fault => .error fault
  | .ok (_, some _) => .error (.system .alreadyExists path.toString)
  | .ok (place, none) => .ok { disk with tree := disk.tree.put place .folder }

/-- Make one folder, or leave the folder that is there. -/
def ensureOne (disk : Disk) (path : Path) : Except Fault Disk :=
  match disk.makeFolder path with
  | .ok disk => .ok disk
  | .error (.system .noEntry text) => .error (.system .noEntry text)
  | .error fault => do if ← disk.isFolder path then return disk else throw fault

/-- Make a folder and those above it, as far as they are missing. -/
def ensureFolder (disk : Disk) (path : Path) : Except Fault Disk :=
  match disk.makeFolder path with
  | .error (.system .noEntry text) =>
    if path.parts = [] then .error (.system .noEntry text)
    else
      match ensureFolder disk path.parent with
      | .error fault => .error fault
      | .ok disk => disk.ensureOne path
  | _ => disk.ensureOne path
termination_by path.parts.length
decreasing_by
  have : path.parts ≠ [] := by assumption
  have := List.length_pos_iff.2 this
  simp only [Path.parent, List.length_dropLast]
  omega

end ShaderFlatten.Disk
