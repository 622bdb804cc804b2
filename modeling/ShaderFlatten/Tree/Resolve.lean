import ShaderFlatten.Tree.Basic

/-!
# Resolving paths

Resolving a path removes its double dots and its links and gives the place that it stands for.  The way
is kept as a trail, because messages name the path as far as it had come: a relative request stays
relative until a link leads to the root.

    Disk.canonical?   every step must exist
    Disk.resolve?     what does not exist is taken as written

A link whose target leads through the link itself has no place.
-/

namespace ShaderFlatten

/-- How far a resolution has come: from the root, or from the working directory some folders up, and
then down the names. -/
structure Trail where
  anchored : Bool
  ups : Nat
  names : List String
  deriving DecidableEq, Repr

namespace Trail

/-- The trail at the root. -/
def root : Trail := ⟨true, 0, []⟩

/-- The trail at the working directory. -/
def here : Trail := ⟨false, 0, []⟩

/-- The steps of a trail. -/
def steps (t : Trail) : List String := List.replicate t.ups ".." ++ t.names

/-- The text of a trail. -/
def text (t : Trail) : String := (if t.anchored then "/" else "") ++ "/".intercalate t.steps

/-- One name further down. -/
def child (t : Trail) (name : String) : Trail := { t with names := t.names ++ [name] }

/-- One folder up; the root is above itself. -/
def parent (t : Trail) : Trail :=
  if t.names ≠ [] then { t with names := t.names.dropLast }
  else if t.anchored then t
  else { t with ups := t.ups + 1 }

end Trail

/-- A place one or more folders up. -/
def Place.up (place : Place) (n : Nat) : Place := place.take (place.length - n)

/-- The place that steps lead to when no link is followed and nothing has to exist. -/
def Place.follow (place : Place) (steps : List String) : Place :=
  steps.foldl (fun done step => if step = ".." then done.dropLast else done ++ [step]) place

/-- Why a resolution ends early. -/
inductive Unresolved where
  /-- the system refused the path as far as it had come -/
  | missing (errno : Errno) (trail : Trail)
  /-- a link leads back to itself; `rest` was still to be followed behind it -/
  | cyclic (link : Trail) (rest : List String)
  /-- a name holds a character that no name can hold -/
  | unnameable
  deriving DecidableEq, Repr

namespace Disk

/-- The place of a trail. -/
def place (disk : Disk) (t : Trail) : Place :=
  if t.anchored then t.names else disk.cwd.up t.ups ++ t.names

/-- What stands at the end of a trail, a link not followed. -/
def entryAt (disk : Disk) (t : Trail) : Except Errno Entry :=
  if maxPathBytes < t.text.utf8ByteSize then .error .nameTooLong
  else (disk.tree.walk .entry maxLinks (if t.anchored then [] else disk.cwd) t.steps).map (·.2)

/-- Follow steps from a trail on.  `pending` are the links whose targets are being followed, and
`depth` bounds how many there can be. -/
def follow (disk : Disk) (strict : Bool) (depth : Nat) (pending : List Trail) (trail : Trail)
    (steps : List String) : Except Unresolved Trail :=
  match steps with
  | [] => .ok trail
  | step :: rest =>
    if step = ".." then follow disk strict depth pending trail.parent rest
    else if !isNameable step then .error .unnameable
    else
      let next := trail.child step
      match disk.entryAt next with
      | .error errno =>
        if strict then .error (.missing errno next)
        else follow disk strict depth pending next rest
      | .ok (.link target) =>
        if next ∈ pending then .error (.cyclic next rest)
        else
          match depth with
          | 0 => .error (.cyclic next rest)
          | depth + 1 =>
            match follow disk strict depth (next :: pending)
                (if isAbsoluteText target then .root else trail) (Path.splitNames target) with
            | .ok reached => follow disk strict (depth + 1) pending reached rest
            | .error (.cyclic link left) => .error (.cyclic link (left ++ rest))
            | .error stop => .error stop
      | .ok _ => follow disk strict depth pending next rest
termination_by (depth, steps.length)

/-- More links than can be pending at once: a link has one trail from the root and one from each
folder above the working directory. -/
def linkDepth (disk : Disk) : Nat := (disk.tree.linkCount + 1) * (disk.cwd.length + 2)

/-- Follow a whole path. -/
def followPath (disk : Disk) (strict : Bool) (path : Path) : Except Unresolved Trail :=
  disk.follow strict disk.linkDepth [] (if path.isAbsolute then .root else .here) path.parts

/-- A path that starts with a tilde starts at a home directory.  One's own is the only one that the disk
knows: there is no table of other users. -/
def expandHome (disk : Disk) (request : String) : Except Fault Path :=
  let path := Path.ofString request
  match path.anchor, path.parts with
  | .relative, first :: rest =>
    if first.toList.head? = some '~' then
      if first = "~" then .ok ⟨.root, disk.home ++ rest⟩
      else if isNameable first then .error (.unknownHome request)
      else .error .unnameable
    else .ok path
  | _, _ => .ok path

/-- The place that a requested path stands for; every step of it must exist. -/
def canonical? (disk : Disk) (request : String) : Except Fault Place := do
  match disk.followPath true (← disk.expandHome request) with
  | .ok trail => return disk.place trail
  | .error (.missing errno trail) => throw (.system errno trail.text)
  | .error (.cyclic link _) => throw (.cyclicLinks link.text request)
  | .error .unnameable => throw .unnameable

/-- The place that a path leads to.  Behind a link that leads back to itself the rest is taken as written, but
its names must be names. -/
def reached? (disk : Disk) (path : Path) : Except Fault Place :=
  match disk.followPath false path with
  | .ok trail => .ok (disk.place trail)
  | .error (.missing _ trail) => .ok (disk.place trail)
  | .error (.cyclic link rest) =>
    let place := (disk.place link).follow rest
    if place.all isNameable then .ok place else .error .unnameable
  | .error .unnameable => .error .unnameable

/-- The place that a path stands for.  It is refused if the system loses itself in links on the way there. -/
def resolve? (disk : Disk) (path : Path) : Except Fault Place := do
  let place ← disk.reached? path
  match disk.stat place.path with
  | .error (.system .linkLoop _) => throw (.endlessLinks place.text)
  | _ => return place

end Disk

end ShaderFlatten
