import ShaderFlatten.Bindings
import ShaderFlatten.Json.Reader
import ShaderFlatten.Text.Utf8
import ShaderFlatten.Tree.Basic
import ShaderFlatten.Yaml.Error

/-!
# Why a document cannot be loaded

A document is read from a file, decoded, and checked; each step has causes of its own.

    Disk.readUniversal disk path    the text of a file
    Disk.readJson disk path         the value of a JSON file
-/

namespace ShaderFlatten

/-- Why settings or options cannot be loaded. -/
inductive LoadError where
  | options (error : OptionsError)
  | digits (limit : DigitLimit)
  | encoding (refusal : Utf8.Refusal)
  | malformedJson
  /-- a list, or else a mapping, of a JSON document is nested too deeply -/
  | deepJson (list : Bool)
  | malformedYaml (path : String)
  /-- a scalar of a YAML document does not have the form that its type asks for -/
  | yaml (error : Yaml.ReadError)
  | file (fault : Fault)
  deriving DecidableEq, Repr

namespace LoadError

/-- The wording of a load error. -/
def message : LoadError → String
  | options error => error.message
  | digits limit => limit.message
  | encoding refusal => refusal.message
  | malformedJson => "<json error>"
  | deepJson list =>
    "maximum recursion depth exceeded while decoding a JSON " ++ (if list then "array" else "object")
      ++ " from a unicode string"
  | malformedYaml path => "Invalid YAML in " ++ path ++ ": " ++ Yaml.ReadError.malformed.message
  | yaml error => error.message
  | file fault => fault.message

/-- The error is a verdict on the document, which a command can report.  Other errors break it down. -/
def isVerdict : LoadError → Bool
  | options .tooDeep => false
  | options _ | digits _ | encoding _ | malformedJson | malformedYaml _ => true
  | deepJson _ => false
  | yaml error => error.isVerdict
  | file fault => fault = .unnameable

end LoadError

/-- The text of a file, with every line end written as one line feed. -/
def Disk.readUniversal (disk : Disk) (path : Path) : Except LoadError Text := do
  let content ← (disk.readBytes path).mapError .file
  let text ← (Utf8.decode content.toList).mapError .encoding
  return Text.universalLines text

/-- The value of a JSON file. -/
def Disk.readJson (disk : Disk) (path : Path) : Except LoadError Value := do
  let text ← disk.readUniversal path
  match Json.read text with
  | .ok v => return v
  | .error .malformed => throw .malformedJson
  | .error (.digits limit) => throw (.digits limit)
  | .error (.tooDeep list) => throw (.deepJson list)

end ShaderFlatten
