import ShaderFlatten.CommandLine.Run

/-!
# Snapshots

A command is a function of the disk that it sees.  A snapshot holds the part of the file system that a
command line can ask for: the paths among its arguments, the configurations, the shaders below its
folders, the files that shaders import, level by level, and the files that the results go to.

A link is recorded with the place where it ends.  A link that leads nowhere counts as nothing, and one
that leads back to itself as a link to itself.
-/

namespace ShaderFlatten.Snapshot

/-! ## Looking -/

/-- What stands at a place whose folder is reached without links. -/
def look? (place : Place) : IO (Option Entry) := do
  let text := place.text
  match ← (IO.FS.realPath text).toBaseIO, ← (IO.FS.readBinFile text).toBaseIO with
  | .ok real, content =>
    if real.toString ≠ text then return some (.link real.toString)
    else
      match content with
      | .ok content => return some (.file content)
      | .error _ => return some .folder
  | .error _, .error (.invalidArgument ..) => return place.getLast?.map .link
  | .error _, _ => return none

/-- The names in a folder; the flag marks folders, to which links do not count. -/
def listing (place : Place) : IO (List (String × Bool)) := do
  let folder ← IO.FS.realPath place.text
  let entries ← folder.readDir
  entries.toList.mapM fun entry => do
    let metadata ← entry.path.symlinkMetadata
    return (entry.fileName, metadata.type == .dir)

/-- The names in a folder, or none if it cannot be listed. -/
def names (place : Place) : IO (List (String × Bool)) := do
  match ← (listing place).toBaseIO with
  | .ok found => return found
  | .error _ => return []

/-- Record what stands at a place, unless it is known. -/
def record (tree : FileTree) (place : Place) : IO FileTree := do
  if (tree.entry? place).isSome || !place.all isNameable then return tree
  match ← look? place with
  | some entry => return tree.put place entry
  | none => return tree

/-- Record the places on the way down to a place. -/
def recordTo (tree : FileTree) (place : Place) : IO FileTree :=
  ((List.range (place.length + 1)).map place.take).foldlM record tree

/-- Record the places that steps lead through. -/
def trace (tree : FileTree) (place : Place) : List String → IO FileTree
  | [] => return tree
  | step :: rest => do
    if step = ".." then trace tree place.dropLast rest
    else
      let next := place ++ [step]
      let tree ← record tree next
      match tree.entry? next with
      | some (.link target) =>
        let reached := (Path.ofString target).parts
        trace (← recordTo tree reached) reached rest
      | _ => trace tree next rest

/-- Record the places that a path leads through, from a home directory on if it asks for that. -/
def addPath (disk : Disk) (path : Path) : IO Disk := do
  let tree ← trace disk.tree (disk.base path) path.parts
  match disk.expandHome path.toString with
  | .ok path => return { disk with tree := ← trace tree (disk.base path) path.parts }
  | .error _ => return { disk with tree }

/-- Record the places that paths lead through. -/
def addPaths (disk : Disk) (paths : List Path) : IO Disk := paths.foldlM addPath disk

/-! ## Folders -/

/-- A number of folders inside each other that no path exceeds. -/
def maxFolders : Nat := 2048

/-- Record the folders and the shaders below a folder, so many levels down. -/
def recordBelow : Nat → FileTree → Place → IO FileTree
  | 0, tree, _ => return tree
  | depth + 1, tree, place => do
    (← names place).foldlM (fun tree (name, isFolder) => do
      let next := place ++ [name]
      if isFolder then
        recordBelow depth (if (tree.entry? next).isSome then tree else tree.put next .folder) next
      else if isShaderName name then trace tree place [name]
      else return tree) tree

/-- Record the shaders below the folder that a path leads to. -/
def addShaders (disk : Disk) (folder : Path) : IO Disk := do
  match disk.stat folder with
  | .ok (place, .folder) => return { disk with tree := ← recordBelow maxFolders disk.tree place }
  | _ => return disk

/-! ## Imports -/

/-- The paths that a file may import. -/
def importPaths : Place × Entry → List Path
  | (place, .file content) =>
    match Utf8.decode (Utf8.dropMark content.toList) with
    | .ok text =>
      (Outline.ofSource text).imports.map fun path => .ofString (Flatten.importRequest place path)
    | .error _ => []
  | _ => []

/-- Record what the files import, so many levels down; the first `known` entries have been followed. -/
def addImports : Nat → Nat → Disk → IO Disk
  | 0, _, disk => return disk
  | levels + 1, known, disk => do
    let entries := disk.tree.entries
    if entries.length = known then return disk
    addImports levels entries.length (← addPaths disk ((entries.drop known).flatMap importPaths))

/-! ## Whole snapshots -/

/-- The places of configurations. -/
def configurations (disk : Disk) : List Path :=
  let folders := (List.range (disk.cwd.length + 1)).map disk.cwd.take
  (Settings.userPlace disk).path :: folders.map fun folder => Place.path (folder ++ [Settings.projectName])

/-- The files that the results go to. -/
def targets (disk : Disk) (a : Arguments) : List Path :=
  let folders := a.dirs.filterMap id
  match a.outDir, disk.findShaders folders with
  | some folder, (.ok places, _) =>
    match OutputPlan.make disk folder folders (a.shaders ++ places.map Place.path) with
    | .ok plan => plan.map (·.2)
    | .error _ => []
  | _, _ => []

/-- The part of the file system that arguments can ask for. -/
def take (cwd home : Place) (a : Arguments) : IO Disk := do
  let disk ← addPaths ⟨.empty, cwd, home⟩ [cwd.path, home.path]
  let disk ← addPaths disk (configurations disk)
  let disk ← addPaths disk
    (a.shaders ++ a.dirs.filterMap id ++ a.optionsFile.toList ++ a.output.toList ++ a.outDir.toList)
  let disk ← (a.dirs.filterMap id).foldlM addShaders disk
  let disk ← addImports (Limits.standard.maxLevels + 1) 0 disk
  addPaths disk (targets disk a)

/-! ## Writing back -/

/-- An entry is a file with a content. -/
def hasContent (entry : Option Entry) (content : ByteArray) : Bool :=
  match entry with
  | some (.file c) => c == content
  | _ => false

/-- Make the folders and write the files in which a tree differs from the one before. -/
def writeBack (old new : FileTree) : IO Unit :=
  new.entries.forM fun (place, entry) => do
    match entry with
    | .folder => unless (old.entry? place).isSome do IO.FS.createDirAll place.text
    | .file content =>
      unless hasContent (old.entry? place) content do IO.FS.writeBinFile place.text content
    | .link _ => pure ()

end ShaderFlatten.Snapshot
