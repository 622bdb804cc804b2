import ShaderFlatten.Yaml.Tag
import ShaderFlatten.Yaml.Token

/-!
# YAML nodes

The tokens of a document form a graph of scalars, sequences and mappings.  Nodes are numbered in the order
in which they start, and collections hold the numbers of their parts.  An alias is the number of the node
that it names, so that a part can be shared, or be a collection that it lies in.

    Graph.ofTokens ts    the graph of the one document, if there is one
-/

namespace ShaderFlatten.Yaml

/-- What a node holds. -/
inductive Content where
  | scalar (text : Text)
  | sequence (items : List Nat)
  | mapping (entries : List (Nat × Nat))
  deriving DecidableEq, Repr

/-- A node of a document. -/
structure Node where
  tag : Tag
  content : Content
  deriving DecidableEq, Repr

/-- The number of entries of a mapping. -/
def Node.entryCount (n : Node) : Nat :=
  match n.content with
  | .mapping entries => entries.length
  | _ => 0

/-- The nodes of a document by their numbers. -/
abbrev Graph := Array Node

/-- How deep collections may be nested on a stack of a thousand calls. -/
def maxNesting : Nat := 490

/-- What is left to read, and what has been read. -/
structure Parse where
  tokens : List Token
  nodes : Graph
  /-- the names of nodes -/
  anchors : List (Text × Nat)
  /-- the handles of tags and what they stand for -/
  handles : List (Text × Text)

/-- A step of reading nodes. -/
abbrev Parser := StateT Parse (Except ReadError)

namespace Parser

/-! ## Tokens and nodes -/

/-- The next token; where the text could not be cut any further, the reading ends. -/
def peek : Parser Token := do
  match (← get).tokens with
  | .failure e :: _ => throw e
  | t :: _ => return t
  | [] => return .streamEnd

/-- The next token is one of some tokens. -/
def isAt (tokens : List Token) : Parser Bool := do return tokens.contains (← peek)

/-- Go past the next token. -/
def skip : Parser Unit := modify fun p => { p with tokens := p.tokens.tail }

/-- Add a node. -/
def addNode (tag : Tag) (content : Content) : Parser Nat :=
  modifyGet fun p => (p.nodes.size, { p with nodes := p.nodes.push ⟨tag, content⟩ })

/-- Give a node its content. -/
def fill (id : Nat) (content : Content) : Parser Unit :=
  modify fun p => { p with nodes := p.nodes.modify id fun n => { n with content } }

/-- The node that stands where nothing is written. -/
def addEmpty : Parser Nat := addNode .null (.scalar [])

/-- A node, or the empty one before some tokens. -/
def orEmpty (stops : List Token) (read : Parser Nat) : Parser Nat := do
  if ← isAt stops then addEmpty else read

/-- The node that an alias names. -/
def named (name : Text) : Parser Nat := do
  match (← get).anchors.lookup name with
  | some id => return id
  | none => throw .malformed

/-- A name is given only once. -/
def checkAnchor (anchor : Option Text) : Parser Unit := do
  if let some name := anchor then
    if ((← get).anchors.lookup name).isSome then throw .malformed

/-- Name a node. -/
def bindAnchor (anchor : Option Text) (id : Nat) : Parser Unit := do
  if let some name := anchor then
    modify fun p => { p with anchors := (name, id) :: p.anchors }

/-! ## Properties -/

/-- The anchor and the tag in front of a node, in either order. -/
structure Properties where
  anchor : Option Text
  mark : Option TagMark

/-- An anchor, if one is next. -/
def anchor? : Parser (Option Text) := do
  match ← peek with
  | .anchor name => do
    skip
    return some name
  | _ => return none

/-- A tag, if one is next. -/
def mark? : Parser (Option TagMark) := do
  match ← peek with
  | .tag mark => do
    skip
    return some mark
  | _ => return none

/-- Read the anchor and the tag in front of a node. -/
def properties : Parser Properties := do
  match ← anchor? with
  | some name => return ⟨some name, ← mark?⟩
  | none =>
    match ← mark? with
    | some mark => return ⟨← anchor?, some mark⟩
    | none => return ⟨none, none⟩

/-- A tag written out in full; its handle must be known. -/
def fullName : Option TagMark → Parser (Option Text)
  | none => return none
  | some ⟨none, suffix⟩ => return some suffix
  | some ⟨some handle, suffix⟩ => do
    match (← get).handles.lookup handle with
    | some start => return some (start ++ suffix)
    | none => throw .malformed

/-- The type that a tag names; a lone exclamation mark leaves the choice open, as no tag does. -/
def typeOr (open? : Tag) : Option Text → Tag
  | none => open?
  | some name => if name = ['!'] then open? else .ofName name

/-- The type of a scalar: without a tag it is a text unless it is plain. -/
def scalarType (plain : Bool) (name : Option Text) (text : Text) : Tag :=
  if name.isNone && !plain then .text else typeOr (.ofText text) name

/-! ## Nodes -/

/-- Where a node may stand decides which blocks it may be. -/
inductive Context where
  | block
  /-- behind a key or a colon of a block mapping, where a sequence needs no indentation -/
  | blockOrIndentless
  | flow
  deriving DecidableEq

/-- What a node turns out to be after its properties. -/
inductive Start where
  | scalar (plain : Bool) (text : Text)
  /-- nothing is written; the properties stand for an empty scalar -/
  | absent
  | indentless
  | flowSequence
  | flowMapping
  | blockSequence
  | blockMapping
  deriving DecidableEq

/-- What starts at the next token, in a context. -/
def start (context : Context) (props : Properties) : Parser Start := do
  let absent : Parser Start :=
    if props.anchor.isSome || props.mark.isSome then return .absent else throw .malformed
  match ← peek with
  | .scalar plain text => return .scalar plain text
  | .flowSequenceStart => return .flowSequence
  | .flowMappingStart => return .flowMapping
  | .blockEntry => if context = .blockOrIndentless then return .indentless else absent
  | .blockSequenceStart => if context = .flow then absent else return .blockSequence
  | .blockMappingStart => if context = .flow then absent else return .blockMapping
  | _ => absent

/-- Add a collection, whose parts are not known yet, under its name. -/
def addCollection (anchor : Option Text) (tag : Tag) : Parser Nat := do
  let id ← addNode tag (.scalar [])
  bindAnchor anchor id
  return id

/-- Add a scalar under its name. -/
def addScalar (anchor : Option Text) (tag : Tag) (text : Text) : Parser Nat := do
  let id ← addNode tag (.scalar text)
  bindAnchor anchor id
  return id

/-- The comma between two flow items. -/
def flowComma (first : Bool) : Parser Unit := do
  if !first then
    if ← isAt [.flowEntry] then skip else throw .malformed

mutual

/-- A node; `fuel` exceeds the number of tokens, and `depth` tells how many collections may still be
nested. -/
def node (fuel depth : Nat) (context : Context) : Parser Nat :=
  match fuel, depth with
  | 0, _ => throw .malformed
  | _, 0 => throw .tooDeep
  | fuel + 1, depth + 1 => do
    match ← peek with
    | .alias name =>
      skip
      named name
    | _ =>
      let props ← properties
      let name ← fullName props.mark
      let start ← start context props
      checkAnchor props.anchor
      match start with
      | .scalar plain text =>
        skip
        addScalar props.anchor (scalarType plain name text) text
      | .absent => addScalar props.anchor (scalarType true name []) []
      | .indentless =>
        let id ← addCollection props.anchor (typeOr .list name)
        fill id (.sequence (← indentlessItems fuel depth []))
        return id
      | .flowSequence =>
        let id ← addCollection props.anchor (typeOr .list name)
        skip
        fill id (.sequence (← flowItems fuel depth true []))
        return id
      | .flowMapping =>
        let id ← addCollection props.anchor (typeOr .map name)
        skip
        fill id (.mapping (← flowEntries fuel depth true []))
        return id
      | .blockSequence =>
        let id ← addCollection props.anchor (typeOr .list name)
        skip
        fill id (.sequence (← blockItems fuel depth []))
        return id
      | .blockMapping =>
        let id ← addCollection props.anchor (typeOr .map name)
        skip
        fill id (.mapping (← blockEntries fuel depth []))
        return id

/-- The items of a block sequence; `done` holds those before, backwards. -/
def blockItems (fuel depth : Nat) (done : List Nat) : Parser (List Nat) :=
  match fuel with
  | 0 => throw .malformed
  | fuel + 1 => do
    match ← peek with
    | .blockEntry =>
      skip
      let item ← orEmpty [.blockEntry, .blockEnd] (node fuel depth .block)
      blockItems fuel depth (item :: done)
    | .blockEnd =>
      skip
      return done.reverse
    | _ => throw .malformed

/-- The items of a sequence without indentation, which ends at anything else. -/
def indentlessItems (fuel depth : Nat) (done : List Nat) : Parser (List Nat) :=
  match fuel with
  | 0 => throw .malformed
  | fuel + 1 => do
    match ← peek with
    | .blockEntry =>
      skip
      let item ← orEmpty [.blockEntry, .key, .value, .blockEnd] (node fuel depth .block)
      indentlessItems fuel depth (item :: done)
    | _ => return done.reverse

/-- The entries of a block mapping. -/
def blockEntries (fuel depth : Nat) (done : List (Nat × Nat)) : Parser (List (Nat × Nat)) :=
  match fuel with
  | 0 => throw .malformed
  | fuel + 1 => do
    match ← peek with
    | .key =>
      skip
      let stops := [.key, .value, .blockEnd]
      let key ← orEmpty stops (node fuel depth .blockOrIndentless)
      if ← isAt [.value] then
        skip
        let item ← orEmpty stops (node fuel depth .blockOrIndentless)
        blockEntries fuel depth ((key, item) :: done)
      else
        let item ← addEmpty
        blockEntries fuel depth ((key, item) :: done)
    | .blockEnd =>
      skip
      return done.reverse
    | _ => throw .malformed

/-- A flow entry behind the mark of its key: the key and, behind a colon, the value. -/
def flowEntry (fuel depth : Nat) (closing : Token) : Parser (Nat × Nat) :=
  match fuel with
  | 0 => throw .malformed
  | fuel + 1 => do
    let key ← orEmpty [.value, .flowEntry, closing] (node fuel depth .flow)
    if ← isAt [.value] then
      skip
      return (key, ← orEmpty [.flowEntry, closing] (node fuel depth .flow))
    else return (key, ← addEmpty)

/-- The items of a flow sequence; an item with a key is a mapping of one entry. -/
def flowItems (fuel depth : Nat) (first : Bool) (done : List Nat) : Parser (List Nat) :=
  match fuel with
  | 0 => throw .malformed
  | fuel + 1 => do
    if ← isAt [.flowSequenceEnd] then
      skip
      return done.reverse
    flowComma first
    match ← peek with
    | .key =>
      let id ← addNode .map (.scalar [])
      skip
      fill id (.mapping [← flowEntry fuel (depth - 1) .flowSequenceEnd])
      flowItems fuel depth false (id :: done)
    | .flowSequenceEnd =>
      skip
      return done.reverse
    | _ =>
      let item ← node fuel depth .flow
      flowItems fuel depth false (item :: done)

/-- The entries of a flow mapping; an entry without a key mark has no value. -/
def flowEntries (fuel depth : Nat) (first : Bool) (done : List (Nat × Nat)) :
    Parser (List (Nat × Nat)) :=
  match fuel with
  | 0 => throw .malformed
  | fuel + 1 => do
    if ← isAt [.flowMappingEnd] then
      skip
      return done.reverse
    flowComma first
    match ← peek with
    | .key =>
      skip
      let entry ← flowEntry fuel depth .flowMappingEnd
      flowEntries fuel depth false (entry :: done)
    | .flowMappingEnd =>
      skip
      return done.reverse
    | _ =>
      let key ← node fuel depth .flow
      let _ ← peek
      let item ← addEmpty
      flowEntries fuel depth false ((key, item) :: done)

end

/-! ## Documents -/

/-- The handles that are known without being declared. -/
def standardHandles : List (Text × Text) :=
  [(['!'], ['!']), (['!', '!'], "tag:yaml.org,2002:".toList)]

/-- The directives of a document: at most one version, whose major number is one, and handles that are
declared once each; `fuel` exceeds the number of tokens. -/
def directives (fuel : Nat) (versionSeen : Bool) (handles : List (Text × Text)) : Parser Unit :=
  match fuel with
  | 0 => throw .malformed
  | fuel + 1 => do
    match ← peek with
    | .directive (.version major) =>
      skip
      if versionSeen || major != 1 then throw .malformed
      directives fuel true handles
    | .directive (.tagHandle handle expansion) =>
      skip
      if (handles.lookup handle).isSome then throw .malformed
      directives fuel versionSeen ((handle, expansion) :: handles)
    | .directive .other =>
      skip
      directives fuel versionSeen handles
    | _ => modify fun p => { p with handles := handles ++ standardHandles }

/-- Go past the marks that end a document. -/
def skipEnds (fuel : Nat) : Parser Unit :=
  match fuel with
  | 0 => throw .malformed
  | fuel + 1 => do
    if ← isAt [.documentEnd] then
      skip
      skipEnds fuel

/-- Nothing but the end follows a document. -/
def finish (fuel : Nat) : Parser Unit := do
  skipEnds fuel
  if !(← isAt [.streamEnd]) then
    directives fuel false []
    let _ ← peek
    throw .malformed

/-- The next token starts a document with directives or a mark of its own. -/
def startsExplicitly : Token → Bool
  | .directive _ | .documentStart => true
  | _ => false

/-- The next token starts or ends a document. -/
def isDocumentMark : Token → Bool
  | .directive _ | .documentStart | .documentEnd | .streamEnd => true
  | _ => false

/-- The root of a document behind its mark: an empty document is an empty scalar. -/
def markedRoot (fuel : Nat) : Parser Nat := do
  directives fuel false []
  if !(← isAt [.documentStart]) then throw .malformed
  skip
  if isDocumentMark (← peek) then addEmpty else node fuel maxNesting .block

/-- The root of the only document of a stream; nothing for an empty stream. -/
def document (fuel : Nat) : Parser (Option Nat) := do
  let first ← peek
  if first = .streamEnd then return none
  let root ← if startsExplicitly first then markedRoot fuel else node fuel maxNesting .block
  finish fuel
  return some root

end Parser

/-- The graph of the only document of a stream, and its root. -/
def Graph.ofTokens (tokens : List Token) : Except ReadError (Option (Graph × Nat)) := do
  let parse : Parse := ⟨tokens, #[], [], Parser.standardHandles⟩
  let (root, parse) ← (Parser.document (4 * tokens.length + 4)).run parse
  return root.map fun root => (parse.nodes, root)

end ShaderFlatten.Yaml
