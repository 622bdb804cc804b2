import ShaderFlatten.Engine.Ledger
import ShaderFlatten.Engine.Limits
import ShaderFlatten.LoadError
import ShaderFlatten.Tree.Resolve

/-!
# Settings

Settings come in layers: what is built in, the user's configuration in the home directory, and the
project's, which is looked for from a folder upwards.  A layer overrides what the layers before it say.

A configuration that is no JSON object is ignored with a warning.
-/

namespace ShaderFlatten

/-- Limits and bindings, and the files they come from. -/
structure Settings where
  limits : Limits
  bindings : Bindings
  userFile : Option Place
  projectFile : Option Place

namespace Settings

/-- The settings that are built in. -/
def standard : Settings := ⟨.standard, .empty, none, none⟩

/-- The warning about a configuration that is ignored. -/
def ignoreRecord (path : Path) (reason : String) : LogRecord :=
  ⟨.warning, logSource.settings, "Ignoring config " ++ path.toString ++ ": " ++ reason⟩

/-- The entries of a configuration file, with the log.  What is no JSON object has none. -/
def readLayer (disk : Disk) (path : Path) :
    Except LoadError (Table Value) × List LogRecord :=
  match disk.readJson path with
  | .ok (.map entries) => (.ok entries, [])
  | .ok _ => (.ok [], [ignoreRecord path "not a JSON object"])
  | .error .malformedJson => (.ok [], [ignoreRecord path LoadError.malformedJson.message])
  | .error (.file fault) => (.ok [], [ignoreRecord path fault.message])
  | .error e => (.error e, [])

/-- A limit that is a whole number, zero or more. -/
def limitValue (key : String) (v : Value) : Except OptionsError Int :=
  match v with
  | .int n => if 0 ≤ n then .ok n else do throw (.badLimit key (← v.shown))
  | v => do throw (.badLimit key (← v.shown))

/-- A limit that may also be lifted. -/
def optionalLimit (key : String) (v : Value) : Except OptionsError (Option Int) :=
  match v with
  | .null => .ok none
  | v => do return some (← limitValue key v)

/-- Override the limits that a configuration sets. -/
def applyLimits (limits : Limits) (entries : Table Value) : Except OptionsError Limits := do
  let importDepth ←
    match entries.get? "max_import_depth" with
    | none => pure limits.importDepth
    | some v => pure (.levels (← limitValue "max_import_depth" v))
  let fileBytes ←
    match entries.get? "max_file_bytes" with
    | none => pure limits.fileBytes
    | some v => optionalLimit "max_file_bytes" v
  let lineLength ←
    match entries.get? "max_line_length" with
    | none => pure limits.lineLength
    | some v => optionalLimit "max_line_length" v
  return { limits with importDepth, fileBytes, lineLength }

/-- Override the settings by a configuration. -/
def applyLayer (settings : Settings) (entries : Table Value) : Except OptionsError Settings := do
  let limits ← applyLimits settings.limits entries
  let bindings ← Bindings.ofValue (.map entries)
  return { settings with limits, bindings := settings.bindings.merge bindings }

/-- The place of the user's configuration. -/
def userPlace (disk : Disk) : Place := disk.home ++ [".wgslpp", "config.json"]

/-- The file name of a project's configuration. -/
def projectName : String := ".wgslpp.config.json"

/-- How many folders a project's configuration is looked for in. -/
def searchLevels : Nat := 50

/-- The nearest folder upwards that holds a project's configuration, among so many. -/
def projectPlaceFrom? (disk : Disk) : Nat → Place → Except Fault (Option Place)
  | 0, _ => .ok none
  | levels + 1, folder => do
    let candidate := folder ++ [projectName]
    if ← disk.isFile candidate.path then return some candidate
    else if folder = [] then return none
    else projectPlaceFrom? disk levels folder.dropLast

/-- The place of a project's configuration, looked for from a folder upwards. -/
def projectPlace? (disk : Disk) (start : Path) : Except Fault (Option Place) := do
  projectPlaceFrom? disk searchLevels (← disk.resolve? start)

/-- Override the settings by a configuration file. -/
def addLayer (disk : Disk) (settings : Settings) (place : Place) :
    Except LoadError Settings × List LogRecord :=
  match readLayer disk place.path with
  | (.error e, log) => (.error e, log)
  | (.ok entries, log) => ((applyLayer settings entries).mapError .options, log)

/-- Override the settings by the user's configuration, if there is one. -/
def addUser (disk : Disk) (settings : Settings) : Except LoadError Settings × List LogRecord :=
  let user := userPlace disk
  match disk.isFile user.path with
  | .error fault => (.error (.file fault), [])
  | .ok false => (.ok settings, [])
  | .ok true =>
    let (result, log) := addLayer disk settings user
    (result.map fun settings => { settings with userFile := some user }, log)

/-- Override the settings by the project's configuration, if there is one. -/
def addProject (disk : Disk) (start : Path) (settings : Settings) :
    Except LoadError Settings × List LogRecord :=
  match projectPlace? disk start with
  | .error fault => (.error (.file fault), [])
  | .ok none => (.ok settings, [])
  | .ok (some place) =>
    let (result, log) := addLayer disk settings place
    (result.map fun settings => { settings with projectFile := some place }, log)

/-- Load the settings for a project folder, with the log. -/
def load (disk : Disk) (start : Path) : Except LoadError Settings × List LogRecord :=
  match addUser disk standard with
  | (.error e, log) => (.error e, log)
  | (.ok settings, log) =>
    let (result, more) := addProject disk start settings
    (result, log ++ more)

/-! ## Description -/

/-- A place that may be missing. -/
def placeText : Option Place → String
  | none => "(not found)"
  | some place => place.text

/-- A limit that may be lifted. -/
def limitText : Option Int → String
  | none => "(unlimited)"
  | some n => decimal n

/-- The depth of imports. -/
def depthText : Depth → String
  | .levels n => decimal n
  | .unset => "None"
  | .emptied => "[]"

/-- A table in the order of its names. -/
def sorted (t : Table Value) : Table Value := t.mergeSort fun a b => decide (a.1 ≤ b.1)

/-- The lines of a table, or one that says that it is empty. -/
def tableLines (show? : Value → Except DigitLimit String) (t : Table Value) :
    Except DigitLimit (List String) :=
  if t.isEmpty then .ok ["    (none)"]
  else (sorted t).mapM fun (name, v) => do return "    " ++ name ++ " = " ++ (← show? v)

/-- The settings for a reader, line by line. -/
def describe (settings : Settings) : Except DigitLimit String := do
  let limits := settings.limits
  let conditions ←
    tableLines (fun v => .ok (if v.isTrue then "true" else "false")) settings.bindings.conditions
  let constants ← tableLines Value.display settings.bindings.constants
  return "\n".intercalate (
    ["wgslpp Environment", String.ofList (List.replicate 50 '='), "",
      "  Global config:    " ++ placeText settings.userFile,
      "  Project config:   " ++ placeText settings.projectFile,
      "  Max import depth: " ++ depthText limits.importDepth,
      "  Max file bytes:   " ++ limitText limits.fileBytes,
      "  Max line length:  " ++ limitText limits.lineLength, "",
      "  Conditions:"] ++ conditions ++ ["  Constants:"] ++ constants ++ [""])

end Settings

end ShaderFlatten
