import ShaderFlatten.Bindings
import ShaderFlatten.Yaml.Atom
import ShaderFlatten.Yaml.SetOrder

/-!
# YAML documents

The value of a document is a scalar or a collection.  Collections are kept by the numbers of their nodes, so
that they can share parts and lie in themselves; such a part is shown by dots.

    Document.display d a    a thing of a document as messages show it
    Document.bindings d     the bindings of an options document
-/

namespace ShaderFlatten.Yaml

/-- A thing of a document: a scalar, or the collection of a node. -/
inductive Datum where
  | atom (a : Atom)
  | collection (id : Nat)
  deriving DecidableEq, Repr

/-- A collection. -/
inductive Collection where
  | list (items : List Datum)
  | map (entries : List (Atom × Datum))
  | set (items : List Atom)
  | pairs (items : List (Datum × Datum))
  deriving DecidableEq, Repr

/-- A document: its root, and its collections by the numbers of their nodes. -/
structure Document where
  root : Datum
  collections : Array Collection

namespace Document

/-- The collection of a node. -/
def collection (d : Document) (id : Nat) : Collection := d.collections.getD id (.list [])

/-- A collection is empty. -/
def isEmpty : Collection → Bool
  | .list items => items.isEmpty
  | .map entries => entries.isEmpty
  | .set items => items.isEmpty
  | .pairs items => items.isEmpty

/-- Everything counts as true but scalars that do not and empty collections. -/
def isTrue (d : Document) : Datum → Bool
  | .atom a => a.isTrue
  | .collection id => !isEmpty (d.collection id)

/-- How a collection is shown inside itself. -/
def dots : Collection → String
  | .map _ | .set _ => Value.shownMap ["..."]
  | .list _ | .pairs _ => Value.shownList ["..."]

/-- A scalar as messages show it. -/
def shownAtom (a : Atom) : Except OptionsError String := a.display.mapError .digits

/-- How deep a thing may be nested to be shown. -/
def maxShown : Nat := 990

/-- A thing as messages show it; `inside` are the collections that it lies in, and `depth` tells how deep
things may still be nested. -/
def displayIn (d : Document) (depth : Nat) (inside : List Nat) (a : Datum) :
    Except OptionsError String :=
  match depth, a with
  | 0, _ => .error .tooDeep
  | _ + 1, .atom a => shownAtom a
  | depth + 1, .collection id =>
    let found := d.collection id
    if inside.contains id then .ok (dots found)
    else
      let shown := displayIn d depth (id :: inside)
      match found with
      | .list items => do return Value.shownList (← items.mapM shown)
      | .map entries => do
        return Value.shownMap (← entries.mapM fun (key, a) => do
          let name ← shownAtom key
          return name ++ ": " ++ (← shown a))
      | .set items =>
        if items.isEmpty then .ok "set()"
        else do return Value.shownMap (← (SetOrder.arrange items).mapM shownAtom)
      | .pairs items => do
        return Value.shownList (← items.mapM fun (a, b) => do
          let first ← shown a
          return "(" ++ first ++ ", " ++ (← shown b) ++ ")")

/-- A thing as messages show it. -/
def display (d : Document) (a : Datum) : Except OptionsError String := d.displayIn maxShown [] a

/-- The entries of a mapping. -/
def entries? (d : Document) : Datum → Option (List (Atom × Datum))
  | .atom _ => none
  | .collection id =>
    match d.collection id with
    | .map entries => some entries
    | _ => none

/-- The entries of the mapping that a document keeps under a name; what counts as false is an empty one.
Nothing if something else is kept there. -/
def part? (d : Document) (name : String) (entries : List (Atom × Datum)) :
    Option (List (Atom × Datum)) :=
  match entries.find? fun (key, _) => key.sameKey (.text name) with
  | none => some []
  | some (_, a) => if d.isTrue a then d.entries? a else some []

/-- How the entries of a document are read. -/
def reader (d : Document) : EntryReader Atom Datum where
  name := fun key => key.name.mapError .digits
  value? := fun | .atom a => a.value? | .collection _ => none
  shown := d.display

/-- The bindings of an options document.  A document that is no mapping binds nothing. -/
def bindings (d : Document) : Except OptionsError Bindings :=
  match d.entries? d.root with
  | none => .ok .empty
  | some entries =>
    Bindings.ofEntries d.reader (d.part? "conditions" entries) (d.part? "constants" entries)

end Document

end ShaderFlatten.Yaml
