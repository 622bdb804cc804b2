import ShaderFlatten.LoadError
import ShaderFlatten.Yaml.Document

/-!
# Options files

An options file is an options document in YAML if its name says so, and in JSON otherwise.  How a YAML text
is read is left to a loader.

    Bindings.load yaml disk path    the bindings of an options file, its YAML read by `yaml`
-/

namespace ShaderFlatten

/-- What reads YAML: the document of a text, or why it has none. -/
abbrev Yaml.Loader := Text → Except Yaml.ReadError Yaml.Document

/-- The document of a YAML file. -/
def Disk.readYaml (disk : Disk) (yaml : Yaml.Loader) (path : Path) : Except LoadError Yaml.Document := do
  let text ← disk.readUniversal path
  match yaml text with
  | .ok d => return d
  | .error .malformed => throw (.malformedYaml path.toString)
  | .error e => throw (.yaml e)

/-- A name that stands for a YAML file. -/
def isYamlPath (path : Path) : Bool := path.suffix = ".yaml" || path.suffix = ".yml"

/-- The bindings of an options file. -/
def Bindings.load (yaml : Yaml.Loader) (disk : Disk) (path : Path) : Except LoadError Bindings := do
  if isYamlPath path then ((← disk.readYaml yaml path).bindings).mapError .options
  else (Bindings.ofValue (← disk.readJson path)).mapError .options

end ShaderFlatten
