import ShaderFlatten.Tree.Fault
import ShaderFlatten.Tree.Path

/-!
# File trees

A file tree binds places to files, folders and links.  The root is always a folder.  A disk is a tree
seen from a working directory by a user with a home directory, who may read and change all of it.

    FileTree.locate   how the system follows a path: names, double dots and links, one after the other
    Disk.locate       the same for a path as a user writes it, which must have a name that can be written
-/

namespace ShaderFlatten

/-- What stands at a place. -/
inductive Entry where
  | file (content : ByteArray)
  | folder
  /-- a link, to a path that is relative to the folder of the link unless it is absolute -/
  | link (target : String)

/-- A file tree: what stands at which place. -/
structure FileTree where
  entries : List (Place × Entry)

namespace FileTree

/-- The tree with nothing but its root. -/
def empty : FileTree := ⟨[]⟩

/-- What stands at a place. -/
def entry? (tree : FileTree) (place : Place) : Option Entry :=
  if place = [] then some .folder else (tree.entries.find? (·.1 = place)).map (·.2)

/-- Put an entry at a place, in place of what stands there. -/
def put (tree : FileTree) (place : Place) (entry : Entry) : FileTree :=
  if tree.entries.any (·.1 = place) then
    ⟨tree.entries.map fun (p, e) => if p = place then (p, entry) else (p, e)⟩
  else ⟨tree.entries ++ [(place, entry)]⟩

/-- Take away what stands at a place. -/
def erase (tree : FileTree) (place : Place) : FileTree :=
  ⟨tree.entries.filter (·.1 ≠ place)⟩

/-- Make a folder at every place on the way to `place` where nothing stands, `place` included. -/
def makeFolders (tree : FileTree) (place : Place) : FileTree :=
  ((List.range (place.length + 1)).map place.take).foldl
    (fun done p => if (done.entry? p).isSome then done else done.put p .folder) tree

/-- Put an entry at a place and make the folders that lead to it. -/
def add (tree : FileTree) (place : Place) (entry : Entry) : FileTree :=
  (tree.makeFolders place.dropLast).put place entry

/-- The number of links in a tree. -/
def linkCount (tree : FileTree) : Nat :=
  tree.entries.countP fun (_, e) => match e with | .link _ => true | _ => false

end FileTree

/-- A file tree, a working directory and a home directory. -/
structure Disk where
  tree : FileTree
  cwd : Place
  home : Place

/-- The greatest number of bytes in a name. -/
def maxNameBytes : Nat := 255

/-- The greatest number of links that the system follows for one path. -/
def maxLinks : Nat := 40

/-- The greatest number of bytes in the text of a path. -/
def maxPathBytes : Nat := 4095

/-- The steps that a link's target consists of.  A slash at its end stays as an empty step, which asks for
a folder. -/
def linkSteps (target : String) : List String :=
  ((Text.split '/' target.toList).map String.ofList).filter (· != "")
    ++ (if target.toList.getLast? = some '/' then [""] else [])

/-- A step that stays where it is. -/
def isStay (step : String) : Bool := step = "." || step = ""

/-- What a path is followed for. -/
inductive Purpose where
  /-- what stands at its end, be it a link -/
  | entry
  /-- what its end leads to -/
  | target
  /-- a file to be written, which is created if it is missing; a slash at the end asks for a folder -/
  | creation
  deriving DecidableEq, Repr

/-- An absolute path text. -/
def isAbsoluteText (s : String) : Bool := s.toList.head? = some '/'

namespace FileTree

/-- Follow steps from a place on, to a place that may be empty in a folder that exists.  Every place
that is stepped from must be a folder; a link is followed unless it is the last step and the purpose is
the entry itself; at most `budget` links are. -/
def locate (tree : FileTree) (purpose : Purpose) (budget : Nat) (place : Place)
    (steps : List String) : Except Errno (Place × Option Entry) :=
  match steps with
  | [] => .ok (place, tree.entry? place)
  | step :: rest =>
    match tree.entry? place with
    | none => .error .noEntry
    | some .folder =>
      if isStay step then locate tree purpose budget place rest
      else if step = ".." then locate tree purpose budget place.dropLast rest
      else if purpose = .creation ∧ rest = [""] then .error .isDirectory
      else if maxNameBytes < step.utf8ByteSize then .error .nameTooLong
      else
        match tree.entry? (place ++ [step]) with
        | some (.link target) =>
          if rest = [] ∧ purpose = .entry then .ok (place ++ [step], some (.link target))
          else
            match budget with
            | 0 => .error .linkLoop
            | budget + 1 =>
              locate tree purpose budget (if isAbsoluteText target then [] else place)
                (linkSteps target ++ rest)
        | _ => locate tree purpose budget (place ++ [step]) rest
    | some _ => .error .notDirectory
termination_by (budget, steps.length)

/-- Follow steps from a place on to something that exists. -/
def walk (tree : FileTree) (purpose : Purpose) (budget : Nat) (place : Place)
    (steps : List String) : Except Errno (Place × Entry) :=
  match tree.locate purpose budget place steps with
  | .ok (place, some entry) => .ok (place, entry)
  | .ok (_, none) => .error .noEntry
  | .error errno => .error errno

end FileTree

namespace Disk

/-- The place where a path starts. -/
def base (disk : Disk) (path : Path) : Place := if path.isAbsolute then [] else disk.cwd

/-- Follow a path.  Its names and its text as a whole must be ones that can be written. -/
def locate (disk : Disk) (purpose : Purpose) (path : Path) : Except Fault (Place × Option Entry) :=
  if !path.isNameable then .error .unnameable
  else if maxPathBytes < path.toString.utf8ByteSize then .error (.system .nameTooLong path.toString)
  else
    (disk.tree.locate purpose maxLinks (disk.base path) path.parts).mapError (.system · path.toString)

/-- What a path leads to, links followed. -/
def stat (disk : Disk) (path : Path) : Except Fault (Place × Entry) :=
  match disk.locate .target path with
  | .ok (place, some entry) => .ok (place, entry)
  | .ok (_, none) => .error (.system .noEntry path.toString)
  | .error fault => .error fault

/-- A path leads to an entry of a kind.  A path that leads nowhere does not; other faults are faults. -/
def leadsTo (disk : Disk) (kind : Entry → Bool) (path : Path) : Except Fault Bool :=
  match disk.stat path with
  | .ok (_, entry) => .ok (kind entry)
  | .error .unnameable => .ok false
  | .error (.system errno text) =>
    if errno.meansAbsent then .ok false else .error (.system errno text)
  | .error fault => .error fault

/-- A path leads to a folder. -/
def isFolder (disk : Disk) (path : Path) : Except Fault Bool :=
  disk.leadsTo (fun | .folder => true | _ => false) path

/-- A path leads to a file. -/
def isFile (disk : Disk) (path : Path) : Except Fault Bool :=
  disk.leadsTo (fun | .file _ => true | _ => false) path

/-- The bytes of the file that a path leads to. -/
def readBytes (disk : Disk) (path : Path) : Except Fault ByteArray :=
  match disk.stat path with
  | .ok (_, .file content) => .ok content
  | .ok (_, .folder) => .error (.system .isDirectory path.toString)
  | .ok (_, .link _) => .error (.system .linkLoop path.toString)
  | .error fault => .error fault

end Disk

end ShaderFlatten
