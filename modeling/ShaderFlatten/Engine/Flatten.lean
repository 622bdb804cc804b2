import ShaderFlatten.Bindings
import ShaderFlatten.Directive.Block
import ShaderFlatten.Directive.Substitution
import ShaderFlatten.Engine.Ledger
import ShaderFlatten.Engine.Limits
import ShaderFlatten.Tree.Resolve

/-!
# Flattening

A file is flattened line by line: conditional directives open, turn and close blocks, imports are
replaced by the flattened file they name, placeholders by constants, and hidden lines are dropped.  A
finished file is cached by its canonical path and never flattened again.

    Flatten.file s levels chain place    flatten the file at `place`, opened through the files `chain`

The recursion is on `levels`, the number of import levels that may still be opened.  The chain is only
used to refuse a file that is already open.
-/

namespace ShaderFlatten

/-- What stays the same during a run. -/
structure Setting where
  disk : Disk
  bindings : Bindings
  limits : Limits
  /-- the size limit for files, which was fixed when the engine was made -/
  readLimit : Option Int

/-- What a part of a run gives, with the ledger after it. -/
abbrev Outcome (α : Type) := Except Halt α × Ledger

namespace Flatten

/-! ## Reading -/

/-- The size that a folder shows. -/
def folderSize : Nat := 4096

/-- The size of what stands at a place. -/
def sizeAt (disk : Disk) (place : Place) : Except Fault Nat :=
  match disk.stat place.path with
  | .ok (_, .file content) => .ok content.size
  | .ok _ => .ok folderSize
  | .error fault => .error fault

/-- What stands against reading a place: it cannot be measured, or it is too large. -/
def sizeObstacle (s : Setting) (place : Place) : Option Cause :=
  match s.readLimit with
  | none => none
  | some limit =>
    match sizeAt s.disk place with
    | .error fault => some (.unreadable fault)
    | .ok size => if limit < (size : Int) then some (.tooLarge place.text size limit) else none

/-- The text of the file at a place, without a byte order mark. -/
def textAt (disk : Disk) (place : Place) : Except Cause Text :=
  match disk.readBytes place.path with
  | .error fault => .error (.unreadable fault)
  | .ok content =>
    match Utf8.decode (Utf8.dropMark content.toList) with
    | .error refusal => .error (.notUtf8 refusal)
    | .ok text => .ok text

/-- Report a cause that concerns a whole file. -/
def failFile {α : Type} (l : Ledger) (cause : Cause) (key : String) : Outcome α :=
  let (failure, l) := l.report (.ofCause cause) key none
  (.error (.failed failure), l)

/-- Read a file.  The log shows it once its size has been allowed. -/
def readText (s : Setting) (place : Place) (l : Ledger) : Outcome Text :=
  let key := place.text
  let l := l.addRead key
  match sizeObstacle s place with
  | some cause => failFile l cause key
  | none =>
    let l := l.note ⟨.debug, logSource.files, "Reading " ++ key⟩
    match textAt s.disk place with
    | .error cause => failFile l cause key
    | .ok text => (.ok text, l)

/-- Keep a finished text.  A text that is there already must be the same. -/
def store (key : String) (text : Text) (l : Ledger) : Outcome Unit :=
  match l.cache.get? key with
  | some cached =>
    if cached = text then (.ok (), l) else failFile l (.cacheConflict key) key
  | none => (.ok (), { l with cache := l.cache.insert key text })

/-! ## Imports -/

/-- Flatten the file at a place that a chain of open files leads to. -/
abbrev Visit := List String → Place → Ledger → Outcome Text

/-- The path that an import denotes: relative to the folder of the importing file. -/
def importRequest (place : Place) (path : Text) : String :=
  ((Place.path place).parent.join (.ofString (String.ofList path))).toString

/-- What ends a run that may open no further level: the depth is exhausted, or it is no number. -/
def depthHalt (limits : Limits) (path : Text) : Halt :=
  match limits.importDepth with
  | .levels n => .ofCause (.importTooDeep path (limits.depthInForce n))
  | .unset | .emptied => .refused (.depth limits.importDepth)

/-- The text that an import line stands for.  `visit` is missing when no further level may be opened. -/
def importText (s : Setting) (visit : Option Visit) (chain : List String) (place : Place)
    (line : Text) (l : Ledger) : Outcome Text :=
  match Line.importPath? line with
  | .error mismatch => (.error (.ofCause (.malformedImport mismatch)), l)
  | .ok path =>
    match s.disk.canonical? (importRequest place path) with
    | .error .unnameable => (.error (.refused .unnameable), l)
    | .error fault => (.error (.ofCause (.unresolvedImport path fault)), l)
    | .ok target =>
      let key := target.text
      if key ∈ chain then (.error (.ofCause (.cyclicImport path)), l)
      else
        match l.cache.get? key with
        | some text =>
          (.ok text, l.note ⟨.debug, logSource.run, "Import " ++ key ++ " served from cache"⟩)
        | none =>
          match visit with
          | none => (.error (depthHalt s.limits path), l)
          | some visit => visit chain target l

/-! ## Lines -/

/-- The open blocks after a conditional directive, which counts in hidden blocks too; nothing for any
other line. -/
def turnBlocks (conditions : Table Value) (blocks : OpenBlocks) (line : Text) :
    Option (Except Cause OpenBlocks) :=
  match Line.kind line with
  | .ifLine => some <|
    match Line.condition? line with
    | .error mismatch => .error (.malformedDirective .ifLine mismatch)
    | .ok name => blocks.openIf name conditions
  | .elseLine => some <|
    match Line.bare? Line.elseMark line with
    | .error mismatch => .error (.malformedDirective .elseLine mismatch)
    | .ok () => blocks.flip
  | .endifLine => some <|
    match Line.bare? Line.endifMark line with
    | .error mismatch => .error (.malformedDirective .endifLine mismatch)
    | .ok () => blocks.close
  | .importLine | .content => none

/-- What a visible import or content line stands for. -/
def lineText (s : Setting) (visit : Option Visit) (chain : List String) (place : Place)
    (line : Text) (l : Ledger) : Outcome Text :=
  if Line.kind line = .importLine then importText s visit chain place line l
  else (Line.substitute line s.bindings.constants s.limits.lineLength, l)

/-- Handle one line: the text to emit, if any, and the open blocks after it. -/
def line (s : Setting) (visit : Option Visit) (chain : List String) (place : Place)
    (blocks : OpenBlocks) (line : Text) (l : Ledger) : Outcome (Option Text × OpenBlocks) :=
  match turnBlocks s.bindings.conditions blocks line with
  | some (.error cause) => (.error (.ofCause cause), l)
  | some (.ok blocks) => (.ok (none, blocks), l)
  | none =>
    if blocks.visible then
      match lineText s visit chain place line l with
      | (.error halt, l) => (.error halt, l)
      | (.ok text, l) => (.ok (some text, blocks), l)
    else (.ok (none, blocks), l)

/-- Some text follows: more than one line, or one that is not empty. -/
def hasText : List Text → Bool
  | [] => false
  | [last] => !last.isEmpty
  | _ :: _ :: _ => true

/-- The text of an emitted line: a line feed ends it if some text of the source follows. -/
def emitted (text : Text) (rest : List Text) : Text := if hasText rest then text ++ ['\n'] else text

/-- Handle the lines from a number on.  `done` holds the emitted texts so far, backwards. -/
def lines (s : Setting) (visit : Option Visit) (chain : List String) (place : Place)
    (number : Nat) (blocks : OpenBlocks) (done : List Text) :
    List Text → Ledger → Outcome (List Text × OpenBlocks)
  | [], l => (.ok (done, blocks), l)
  | first :: rest, l =>
    match line s visit chain place blocks first l with
    | (.error (.failed failure), l) =>
      let (failure, l) := l.report failure place.text (some (number, first))
      (.error (.failed failure), l)
    | (.error (.refused refusal), l) => (.error (.refused refusal), l)
    | (.ok (none, blocks), l) => lines s visit chain place (number + 1) blocks done rest l
    | (.ok (some text, blocks), l) =>
      lines s visit chain place (number + 1) blocks (emitted text rest :: done) rest l

/-! ## Files -/

/-- Flatten the lines of a file and keep the result. -/
def source (s : Setting) (visit : Option Visit) (chain : List String) (place : Place)
    (text : Text) (l : Ledger) : Outcome Text :=
  let all := Text.lines text
  match lines s visit chain place 1 .none [] all l with
  | (.error halt, l) => (.error halt, l)
  | (.ok (done, blocks), l) =>
    match blocks.finish with
    | .error cause =>
      let (failure, l) :=
        l.report (.ofCause cause) place.text (some (all.length, all.getLast?.getD []))
      (.error (.failed failure), l)
    | .ok () =>
      let content := done.reverse.flatten
      match store place.text content l with
      | (.error halt, l) => (.error halt, l)
      | (.ok (), l) => (.ok content, l)

/-- Flatten a file, given how the files that it imports are flattened. -/
def fileWith (s : Setting) (visit : Option Visit) (ancestors : List String) (place : Place)
    (l : Ledger) : Outcome Text :=
  match readText s place l with
  | (.error halt, l) => (.error halt, l)
  | (.ok text, l) => source s visit (ancestors ++ [place.text]) place text l

/-- Flatten a file; at most `levels` levels of imports may be opened below it. -/
def file (s : Setting) : (levels : Nat) → Visit
  | 0 => fileWith s none
  | levels + 1 => fileWith s (some (file s levels))

/-- Flatten the file that a request denotes, or serve it from the cache. -/
def request (s : Setting) (request : String) (l : Ledger) : Outcome Text :=
  match s.disk.canonical? request with
  | .error .unnameable => (.error (.refused .unnameable), l)
  | .error fault => failFile l (.unresolvedPath request fault) request
  | .ok place =>
    match l.cache.get? place.text with
    | some text =>
      (.ok text, l.note ⟨.debug, logSource.run, "Serving " ++ place.text ++ " from cache"⟩)
    | none => file s s.limits.levels [] place l

end Flatten

end ShaderFlatten
