/-!
# Manual

How the command is called, in short and in full.
-/

namespace ShaderFlatten.Manual

/-- How the command is called, in short. -/
def usage : String :=
  "\n".intercalate
    ["usage: wgslpp [-h] [--dir DIR] [--cond NAME[=BOOL]] [--const NAME=VALUE]",
      "              [--options-file OPTIONS_FILE] [--max-depth MAX_DEPTH] [-o OUTPUT]",
      "              [--out-dir OUT_DIR] [--format \x7btext,json\x7d] [--scan] [--env] [-v]",
      "              [shaders ...]", ""]

/-- The column in which explanations start. -/
def column : Nat := 24

/-- An argument and the lines of its explanation, which start beside it if it is short enough. -/
def entry (name : String) (lines : List String) : String :=
  let indent := String.ofList (List.replicate column ' ')
  let head := "  " ++ name
  let text := ("\n" ++ indent).intercalate lines
  if head.length + 2 ≤ column then
    head ++ String.ofList (List.replicate (column - head.length) ' ') ++ text ++ "\n"
  else head ++ "\n" ++ indent ++ text ++ "\n"

/-- How the command is called, in full. -/
def help : String :=
  String.join
    [usage, "\n",
      "Preprocess WGSL shaders: #import, #if/#else/#endif and #(constant).\n",
      "\npositional arguments:\n",
      entry "shaders" ["Shader files to process"],
      "\noptions:\n",
      entry "-h, --help" ["show this help message and exit"],
      entry "--dir DIR" ["Process every .wgsl file under DIR (repeatable)"],
      entry "--cond NAME[=BOOL]" ["Set a condition (repeatable). Example: --cond SHADOWS",
        "or --cond SHADOWS=false"],
      entry "--const NAME=VALUE" ["Set a constant (repeatable). Example: --const",
        "workgroup_x=8"],
      entry "--options-file OPTIONS_FILE" ["YAML or JSON file with 'conditions' and 'constants'",
        "mappings"],
      entry "--max-depth MAX_DEPTH" ["Maximum #import nesting depth"],
      entry "-o OUTPUT, --output OUTPUT" ["Write output to a file instead of stdout (single",
        "shader only)"],
      entry "--out-dir OUT_DIR" ["Write each processed shader into DIR under its file",
        "name"],
      entry "--format \x7btext,json\x7d" ["Output format: text (default) or json"],
      entry "--scan" ["List imports, conditions and constants used by each",
        "shader, then exit"],
      entry "--env" ["Print resolved configuration, then exit"],
      entry "-v, --verbose" ["Show debug logging"]]

end ShaderFlatten.Manual
