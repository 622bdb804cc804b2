import ShaderFlatten.CommandLine.Run
import ShaderFlatten.Text.Console
import ShaderFlatten.Yaml.Build

/-!
# The tools at hand

The console without colours, and the loader that reads YAML text by its own rules.
-/

namespace ShaderFlatten

/-- The tools that the program runs with. -/
def Tools.standard : Tools := ⟨.plain, Yaml.read⟩

end ShaderFlatten
