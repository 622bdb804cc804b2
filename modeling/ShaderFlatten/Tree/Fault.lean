import ShaderFlatten.Text.Quoted

/-!
# Faults of the file system

Why a path cannot be resolved, read or written, and the message that says so.
-/

namespace ShaderFlatten

/-- The conditions that the file system reports. -/
inductive Errno where
  | noEntry
  | alreadyExists
  | notDirectory
  | isDirectory
  | nameTooLong
  | linkLoop
  deriving DecidableEq, Repr

/-- The number of a condition. -/
def Errno.number : Errno → Nat
  | .noEntry => 2
  | .alreadyExists => 17
  | .notDirectory => 20
  | .isDirectory => 21
  | .nameTooLong => 36
  | .linkLoop => 40

/-- The wording of a condition. -/
def Errno.text : Errno → String
  | .noEntry => "No such file or directory"
  | .alreadyExists => "File exists"
  | .notDirectory => "Not a directory"
  | .isDirectory => "Is a directory"
  | .nameTooLong => "File name too long"
  | .linkLoop => "Too many levels of symbolic links"

/-- The conditions under which a path leads nowhere, so that it is neither a file nor a folder.  The others
leave the question open. -/
def Errno.meansAbsent : Errno → Bool
  | .noEntry | .notDirectory | .linkLoop => true
  | .alreadyExists | .isDirectory | .nameTooLong => false

/-- A fault, with the path it concerns. -/
inductive Fault where
  /-- the file system refused an operation on a path -/
  | system (errno : Errno) (path : String)
  /-- the links of a requested path lead back to a link -/
  | cyclicLinks (link request : String)
  /-- a path leads into links that lead back to themselves, although nothing of it has to exist -/
  | endlessLinks (path : String)
  /-- the home directory that a requested path starts with is not known -/
  | unknownHome (request : String)
  /-- a path holds a character that no name can hold -/
  | unnameable
  deriving DecidableEq, Repr

/-- The wording of a link that leads back to itself. -/
def linkLoopText (link : String) : String := "Symlink loop from " ++ quoted link

/-- The wording of a fault. -/
def Fault.message : Fault → String
  | .system errno path =>
    "[Errno " ++ decimal errno.number ++ "] " ++ errno.text ++ ": " ++ quoted path
  | .cyclicLinks link request =>
    "[Errno " ++ decimal Errno.linkLoop.number ++ "] " ++ linkLoopText link ++ ": " ++ quoted request
  | .endlessLinks path => linkLoopText path
  | .unknownHome request =>
    "[Errno " ++ decimal Errno.linkLoop.number ++ "] Could not determine home directory.: "
      ++ quoted request
  | .unnameable => "embedded null byte"

end ShaderFlatten
