import ShaderFlatten.CommandLine.Manual
import ShaderFlatten.CommandLine.Snapshot
import ShaderFlatten.CommandLine.Standard

/-!
# The program

The program takes a snapshot of the file system, answers the command line, and shows and writes what the
answer says.  The answer takes some things for granted:

* every entry of the file system can be read and changed, and there is room for more;
* no user has a home directory but the one who runs the program;
* the stack holds a thousand calls, which bounds how deep imports and documents may nest; showing a value and
  searching folders need no stack;
* half of a surrogate pair in a document is a private character;
* the console at hand has no colours and breaks no line, and its markup has neither names of emoji nor tags with
  handlers.
-/

namespace ShaderFlatten.Program

/-- The text of a piece. -/
def pieceText : Piece → String
  | .text s => s
  | .help => Manual.help
  | .usage => Manual.usage

/-- The line of a log record. -/
def logLine (r : LogRecord) : String := r.level.name ++ " " ++ r.message ++ "\n"

/-- A place of the file system, or the root. -/
def placeOf (text : Option String) : Place := (text.map fun s => (Path.ofString s).parts).getD []

/-- The disk that a command line sees. -/
def disk (words : List String) : IO Disk := do
  let cwd := placeOf (some (← IO.currentDir).toString)
  let home := placeOf (← IO.getEnv "HOME")
  match Arguments.parse words with
  | .ok a => Snapshot.take cwd home a
  | .error _ => return ⟨.empty, cwd, home⟩

/-- Answer a command line and give the exit code. -/
def respond (words : List String) : IO UInt32 := do
  let before ← disk words
  let (ending, t) := Command.run .standard before words false
  Snapshot.writeBack before.tree t.disk.tree
  IO.print (String.join (t.out.map pieceText))
  IO.eprint (String.join (t.log.map logLine ++ t.err.map pieceText))
  match ending with
  | .exit code => return code.toUInt32
  | .broken breakdown =>
    IO.eprintln breakdown.message
    return 1

end ShaderFlatten.Program

/-- Answer a command line. -/
def main (words : List String) : IO UInt32 := ShaderFlatten.Program.respond words
