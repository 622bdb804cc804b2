import ShaderFlatten.Yaml.Conversion
import ShaderFlatten.Yaml.Document
import ShaderFlatten.Yaml.Node

/-!
# From nodes to values

A document is built breadth first: the parts of a collection become scalars at once, and its collections
wait in a queue until all that was found before them has been filled.  So the first error is the one that
lies least deep.

A mapping that is filled first takes in the entries of the mappings that its merge keys name; they come
before its own, so that its own win.

    read t    the document of a YAML text
-/

namespace ShaderFlatten.Yaml

/-- A document that is being built. -/
structure Build where
  /-- the nodes; filling a mapping changes its entries and the types of its keys -/
  graph : Graph
  /-- what has become of which node -/
  data : Array (Option Datum)
  /-- the collections that have been filled -/
  collections : Array Collection
  /-- the collections that wait, the last one first -/
  waiting : List Nat
  /-- how many entries the mappings had at the start -/
  entryCount : Nat

/-- A step of building a document. -/
abbrev Builder := StateT Build (Except ReadError)

namespace Builder

/-- A node. -/
def node (id : Nat) : Builder Node := do return (← get).graph.getD id ⟨.unknown, .scalar []⟩

/-- Change a node. -/
def changeNode (id : Nat) (f : Node → Node) : Builder Unit :=
  modify fun b => { b with graph := b.graph.modify id f }

/-! ## Scalars -/

/-- How many default values may be followed. -/
def maxDefaults : Nat := 990

/-- The text of a node as a scalar: a mapping with the key for a default value has the text of that
value. -/
def scalarText (fuel id : Nat) : Builder Text :=
  match fuel with
  | 0 => throw .tooDeep
  | fuel + 1 => do
    match (← node id).content with
    | .scalar text => return text
    | .sequence _ => throw .malformed
    | .mapping entries =>
      let b ← get
      match entries.find? fun (key, _) => (b.graph[key]?).any (·.tag = .default) with
      | some (_, value) => scalarText fuel value
      | none => throw .malformed

/-- A node as a scalar of its type. -/
def scalar (id : Nat) (tag : Tag) : Builder Datum := do
  let text ← scalarText maxDefaults id
  if tag = .timestamp then
    if let .mapping _ := (← node id).content then throw .timestampOfMapping
  return .atom (← Atom.ofScalar tag id text)

/-! ## Things -/

/-- The types of collections. -/
def isCollectionTag : Tag → Bool
  | .list | .map | .set | .orderedMap | .pairs => true
  | _ => false

/-- What a node becomes.  A collection is put into the queue when it is met first. -/
def datum (id : Nat) : Builder Datum := do
  match ((← get).data[id]?).join with
  | some d => return d
  | none =>
    let tag := (← node id).tag
    let d ←
      if isCollectionTag tag then do
        modify fun b => { b with waiting := id :: b.waiting }
        pure (.collection id)
      else scalar id tag
    modify fun b => { b with data := b.data.setIfInBounds id (some d) }
    return d

/-- What a key becomes, which has to be a scalar. -/
def key (id : Nat) : Builder Atom := do
  match ← datum id with
  | .atom a => return a
  | .collection _ => throw .malformed

/-! ## Merging -/

/-- The entries of a mapping. -/
def entriesOf (id : Nat) : Builder (List (Nat × Nat)) := do
  match (← node id).content with
  | .mapping entries => return entries
  | _ => throw .malformed

/-- Set the entries of a mapping. -/
def setEntries (id : Nat) (entries : List (Nat × Nat)) : Builder Unit :=
  changeNode id fun n => { n with content := .mapping entries }

/-- The first merge key among entries, by its place, and what it names. -/
def mergeKey? (entries : List (Nat × Nat)) : Builder (Option (Nat × Nat)) := do
  let b ← get
  let place? := entries.findIdx? fun (key, _) => (b.graph[key]?).any (·.tag = .merge)
  return place?.bind fun place => (entries[place]?).map fun (_, value) => (place, value)

/-- The mappings that a merge key names: one, or those of a list. -/
def mergeSources (value : Nat) : Builder (List Nat) := do
  match (← node value).content with
  | .mapping _ => return [value]
  | .sequence items => return items
  | .scalar _ => throw .malformed

/-- A key for a default value is a text where it is not asked for. -/
def settleKey (id : Nat) : Builder Unit :=
  changeNode id fun n => if n.tag = .default then { n with tag := .text } else n

/-- Take in what the merge keys of a mapping name, after what has been found before.  Of several mappings
that one key names the first wins, so that its entries come last.  Every step removes a merge key, and
`fuel` exceeds their number. -/
def merge (fuel id : Nat) (found : List (Nat × Nat)) : Builder Unit :=
  match fuel with
  | 0 => throw .tooDeep
  | fuel + 1 => do
    let entries ← entriesOf id
    match ← mergeKey? entries with
    | none =>
      entries.forM fun (key, _) => settleKey key
      setEntries id (found ++ entries)
    | some (place, value) =>
      setEntries id (entries.eraseIdx place)
      let more ← (← mergeSources value).foldlM (fun more source => do
        merge fuel source []
        return (← entriesOf source) ++ more) []
      merge fuel id (found ++ more)

/-! ## Collections -/

/-- The entries of a mapping after merging. -/
def mapEntries (id : Nat) : Builder (List (Atom × Datum)) := do
  merge (← get).entryCount.succ id []
  (← entriesOf id).foldlM (fun done (k, v) => do
    let name ← key k
    return Atom.bind done name (← datum v)) []

/-- The pair of a mapping with one entry. -/
def pair (id : Nat) : Builder (Datum × Datum) := do
  match ← entriesOf id with
  | [(k, v)] => return (← datum k, ← datum v)
  | _ => throw .malformed

/-- The items of a sequence. -/
def itemsOf (id : Nat) : Builder (List Nat) := do
  match (← node id).content with
  | .sequence items => return items
  | _ => throw .malformed

/-- The collection of a node. -/
def collection (id : Nat) : Builder Collection := do
  match (← node id).tag with
  | .list => return .list (← (← itemsOf id).mapM datum)
  | .map => return .map (← mapEntries id)
  | .set => return .set ((← mapEntries id).map (·.1))
  | .orderedMap | .pairs => return .pairs (← (← itemsOf id).mapM pair)
  | _ => throw .malformed

/-- Fill the collections of a queue, and then those that have been met meanwhile; every round fills one
collection or more, and `fuel` exceeds their number. -/
def fillAll (fuel : Nat) : Builder Unit :=
  match fuel with
  | 0 => return ()
  | fuel + 1 => do
    match (← get).waiting with
    | [] => return ()
    | waiting =>
      modify fun b => { b with waiting := [] }
      waiting.reverse.forM fun id => do
        let filled ← collection id
        modify fun b => { b with collections := b.collections.setIfInBounds id filled }
      fillAll fuel

/-- Build the document whose root is a node. -/
def document (root : Nat) : Builder Document := do
  let d ← datum root
  fillAll ((← get).graph.size + 1)
  return ⟨d, (← get).collections⟩

end Builder

/-- The document of a graph. -/
def Document.ofGraph (graph : Graph) (root : Nat) : Except ReadError Document := do
  let size := graph.size
  let entryCount := graph.foldl (fun sum n => sum + n.entryCount) 0
  let start : Build :=
    ⟨graph, Array.replicate size none, Array.replicate size (.list []), [], entryCount⟩
  return (← (Builder.document root).run start).1

/-- The characters that a YAML text may hold. -/
def isAllowed (c : Char) : Bool :=
  let n := c.toNat
  n == 0x09 || n == 0x0A || n == 0x0D || (0x20 ≤ n && n ≤ 0x7E) || n == 0x85
    || (0xA0 ≤ n && n ≤ 0xD7FF) || (0xE000 ≤ n && n ≤ 0xFFFD) || 0x10000 ≤ n

/-- The document of a YAML text; an empty text is null. -/
def read (t : Text) : Except ReadError Document := do
  if !t.all isAllowed then throw .malformed
  match ← Graph.ofTokens (Token.scan t) with
  | none => return ⟨.atom .null, #[]⟩
  | some (graph, root) => Document.ofGraph graph root

end ShaderFlatten.Yaml
