import ShaderFlatten.Batch
import ShaderFlatten.CommandLine.Arguments
import ShaderFlatten.Console
import ShaderFlatten.Json.Writer
import ShaderFlatten.Options
import ShaderFlatten.Outline
import ShaderFlatten.OutputPlan
import ShaderFlatten.Settings
import ShaderFlatten.Tree.Edit
import ShaderFlatten.Tree.Search

/-!
# The command line

A command reads its arguments and the settings, and then describes the settings, outlines the shaders,
or processes them and puts the results on the standard output or into files.  It is a function of the
disk: what it shows, what it logs and the files it leaves are its response.  It works with a console and a
loader of YAML, whatever they do; a line that the console refuses breaks it down.

    Command.run tools disk words interrupted    the response to a command line
-/

namespace ShaderFlatten

/-- What a command works with. -/
structure Tools where
  console : Console
  yaml : Yaml.Loader

/-- A piece of what a command shows. -/
inductive Piece where
  | text (s : String)
  /-- how the command is called, in full -/
  | help
  /-- how the command is called, in short -/
  | usage
  deriving DecidableEq, Repr

/-- What ends a command before it can choose its exit code. -/
inductive Breakdown where
  | file (fault : Fault)
  | load (error : LoadError)
  | refused (refusal : Refusal)
  | digits (limit : DigitLimit)
  /-- an option that was given without a value is used as a folder -/
  | emptyFolder
  /-- an option that was given without a value is used as a condition -/
  | emptyCondition
  /-- the console refuses a line -/
  | markup (error : MarkupError)
  deriving DecidableEq, Repr

/-- The wording of a breakdown. -/
def Breakdown.message : Breakdown → String
  | .file fault => fault.message
  | .load error => error.message
  | .refused refusal => refusal.message
  | .digits limit => limit.message
  | .emptyFolder => "'list' object has no attribute 'is_dir'"
  | .emptyCondition => "'list' object has no attribute 'partition'"
  | .markup error => error.message

/-- What a command does so far: the disk, what it shows on its two outputs, and its log. -/
structure Transcript where
  disk : Disk
  out : List Piece
  err : List Piece
  log : List LogRecord

/-- How a command ends. -/
inductive Ending where
  | exit (code : Nat)
  | broken (breakdown : Breakdown)

/-- A command's transcript and its end. -/
abbrev Response := Ending × Transcript

namespace Transcript

/-- Nothing has been done. -/
def start (disk : Disk) : Transcript := ⟨disk, [], [], []⟩

/-- Print a text and a line end on the standard output. -/
def print (t : Transcript) (s : String) : Transcript := { t with out := t.out ++ [.text (s ++ "\n")] }

/-- Put a text on an output. -/
def put (t : Transcript) (stream : Stream) (s : String) : Transcript :=
  match stream with
  | .out => { t with out := t.out ++ [.text s] }
  | .err => { t with err := t.err ++ [.text s] }

/-- Show lines on an output of the console, one after the other, up to one that it refuses. -/
def tell (console : Console) (stream : Stream) (t : Transcript) :
    List String → Except Breakdown Unit × Transcript
  | [] => (.ok (), t)
  | line :: rest =>
    match console.line stream line with
    | .error e => (.error (.markup e), t)
    | .ok shown => tell console stream (t.put stream shown) rest

/-- Show pieces on the error output. -/
def tellPieces (t : Transcript) (pieces : List Piece) : Transcript := { t with err := t.err ++ pieces }

/-- Add to the log. -/
def addLog (t : Transcript) (log : List LogRecord) : Transcript := { t with log := t.log ++ log }

/-- End with an exit code. -/
def exit (t : Transcript) (code : Nat) : Response := (.exit code, t)

/-- End by a breakdown. -/
def breakDown (t : Transcript) (b : Breakdown) : Response := (.broken b, t)

/-- Show lines on the error output and end with an exit code. -/
def tellAndExit (t : Transcript) (console : Console) (lines : List String) (code : Nat) : Response :=
  match t.tell console .err lines with
  | (.error b, t) => t.breakDown b
  | (.ok (), t) => t.exit code

end Transcript

namespace Command

/-! ## Bindings from options -/

/-- A name without the blanks around it. -/
def trimmed (s : String) : String := String.ofList (Text.trim s.toList)

/-- The refusal of a condition's value. -/
def badSwitch (name value : String) : String :=
  "Condition '" ++ name ++ "' expects a boolean, got '" ++ value ++ "'"

/-- The truth value of a condition option: true, unless one is given. -/
def switchValue (name : String) : Option String → Except String Value
  | none => .ok (.bool true)
  | some value =>
    match switchWord? value with
    | some b => .ok (.bool b)
    | none => .error (badSwitch name value)

/-- Why options cannot be used: a message about them, or what breaks the command down. -/
inductive OptionsStop where
  | reported (message : String)
  | broken (breakdown : Breakdown)

/-- A table of conditions with one more option. -/
def addCondition (done : Table Value) : Option String → Except OptionsStop (Table Value)
  | none => .error (.broken .emptyCondition)
  | some item => do
    let (name, value) := Arguments.splitEquals item
    return done.insert (trimmed name) (← (switchValue name value).mapError .reported)

/-- The conditions that options set; the last one of a name wins. -/
def conditionTable (items : List (Option String)) : Except OptionsStop (Table Value) :=
  items.foldlM addCondition []

/-- An option for a constant as messages name it. -/
def constantWord (item : Option String) : String := item.getD "[]"

/-- The constants that options set; the last one of a name wins. -/
def constantTable (items : List (Option String)) : Table Value :=
  items.foldl (fun done item =>
    match Arguments.splitEquals (constantWord item) with
    | (name, some value) => done.insert (trimmed name) (.ofArgument value)
    | (_, none) => done) []

/-- The options for constants without an equals sign, which are ignored. -/
def malformedConstants (items : List (Option String)) : List String :=
  (items.map constantWord).filter fun item => (Arguments.splitEquals item).2.isNone

/-! ## Reports -/

/-- A diagnostic in a report. -/
def diagnosticReport (d : Diagnostic) : Report :=
  .record [("severity", .text d.severity), ("kind", .text d.kind), ("message", .text d.message),
    ("path", .text d.path), ("line_number", .optional .number d.lineNumber),
    ("line_text", .optional (fun t => .text (String.ofList t)) d.lineText)]

/-- A failure in a report, under the input that failed. -/
def failureReport (input : Path) (f : Failure) : Report :=
  .record [("input", .text input.toString), ("kind", .text f.kind.name), ("message", .text f.message),
    ("path", .optional .text f.path), ("line_number", .optional .number f.lineNumber),
    ("line_text", .optional (fun t => .text (String.ofList t)) f.lineText),
    ("trace", .list (f.trace.map diagnosticReport))]

/-- A processed shader in a report. -/
def entryReport (path : Path) (text : Text) : Report :=
  .record [("path", .text path.toString), ("output", .text (String.ofList text)),
    ("sha256", .text (contentDigest text))]

/-- The results of a batch: the texts one after the other, or a report. -/
def batchText (json : Bool) (b : Batch) : String :=
  if json then
    (Report.record [("shaders", .list (b.entries.map fun (p, t) => entryReport p t)),
      ("errors", .list (b.errors.map fun (p, f) => failureReport p f))]).toJson
  else "\n".intercalate (b.entries.map fun (_, t) => String.ofList t)

/-- An outline in a report. -/
def outlineReport (path : Path) (o : Outline) : Report :=
  let texts (ts : List Text) : Report := .list (ts.map fun t => .text (String.ofList t))
  .record [("path", .text path.toString), ("imports", texts o.imports),
    ("conditions", texts o.conditions), ("constants", texts o.constants),
    ("max_nesting", .number o.maxNesting),
    ("invalid_lines", .list (o.invalidLines.map fun (n, t) =>
      .record [("line", .number n), ("text", .text (String.ofList t))]))]

/-- Names in a row. -/
def nameRow (names : List Text) : String := ", ".intercalate (names.map String.ofList)

/-- A row, or a note that there is nothing in it. -/
def rowOrNone (row : String) : String := if row.isEmpty then "(none)" else row

/-- The lines that show an outline. -/
def outlineLines (console : Console) (path : Path) (o : Outline) : List String :=
  ["[bold]" ++ console.escape path.toString ++ "[/]",
    "  imports:    " ++ rowOrNone (console.escape (nameRow o.imports)),
    "  conditions: " ++ rowOrNone (nameRow o.conditions),
    "  constants:  " ++ rowOrNone (nameRow o.constants)] ++
    o.invalidLines.map fun (n, t) =>
      "  [red]line " ++ decimal n ++ ":[/] " ++ console.escape (String.ofList t)

/-- The line about an input that cannot be read. -/
def unreadableLine (console : Console) (path : Path) (e : LoadError) : String :=
  "[bold red]✗[/] Cannot read [cyan]" ++ console.escape path.toString ++ "[/]: " ++ console.escape e.message

/-- The line about an option for a constant without an equals sign. -/
def ignoredLine (item : String) : String :=
  "[yellow]Ignoring malformed --const '" ++ item ++ "' (expected NAME=VALUE)[/]"

/-- The line about a text that has been written to its target. -/
def writtenLine (path target : Path) : String :=
  "[green]✓[/] " ++ path.toString ++ " → " ++ target.toString

/-- The line about an input that failed. -/
def failureLine (console : Console) (input : Path) (f : Failure) : String :=
  "[bold red]✗[/] " ++ console.escape input.toString ++ ": [red]" ++ f.kind.name ++ "[/] "
    ++ console.escape f.message

/-! ## Modes -/

/-- What has been found out about the inputs: outlines, and whether all of them are valid. -/
structure Survey where
  found : List (Path × Outline)
  clean : Bool

/-- Outline the inputs one after the other.  An input that cannot be read is told; a path that no file can
have breaks the command down. -/
def survey (console : Console) (t : Transcript) (s : Survey) :
    List Path → Except Breakdown Survey × Transcript
  | [] => (.ok s, t)
  | path :: rest =>
    match t.disk.readUniversal path with
    | .ok text =>
      let o := Outline.ofSource text
      survey console t ⟨s.found ++ [(path, o)], s.clean && o.isValid⟩ rest
    | .error (.file .unnameable) => (.error (.file .unnameable), t)
    | .error e =>
      match t.tell console .err [unreadableLine console path e] with
      | (.error b, t) => (.error b, t)
      | (.ok (), t) => survey console t { s with clean := false } rest

/-- Show outlines: a report, or their lines. -/
def showOutlines (console : Console) (t : Transcript) (json : Bool) (found : List (Path × Outline)) :
    Except Breakdown Unit × Transcript :=
  if json then (.ok (), t.print (Report.list (found.map fun (p, o) => outlineReport p o)).toJson)
  else t.tell console .out (found.flatMap fun (p, o) => outlineLines console p o)

/-- Outline the inputs. -/
def runScan (console : Console) (t : Transcript) (json : Bool) (inputs : List Path) : Response :=
  match survey console t ⟨[], true⟩ inputs with
  | (.error b, t) => t.breakDown b
  | (.ok s, t) =>
    match showOutlines console t json s.found with
    | (.error b, t) => t.breakDown b
    | (.ok (), t) => t.exit (if s.clean then 0 else 1)

/-- Write the texts of a batch to the files of a plan, one after the other. -/
def writeEntries (console : Console) (plan : OutputPlan) (t : Transcript) :
    List (Path × Text) → Except Breakdown Unit × Transcript
  | [] => (.ok (), t)
  | (path, text) :: rest =>
    let target := ((plan.find? (·.1 = path)).map (·.2)).getD path
    match t.disk.ensureFolder target.parent with
    | .error fault => (.error (.file fault), t)
    | .ok disk =>
      let t := { t with disk }
      match disk.writeBytes target (Text.encode text) with
      | .error fault => (.error (.file fault), t)
      | .ok disk =>
        match { t with disk }.tell console .err [writtenLine path target] with
        | (.error b, t) => (.error b, t)
        | (.ok (), t) => writeEntries console plan t rest

/-- Put the results of a batch where they are asked for. -/
def deliver (console : Console) (t : Transcript) (a : Arguments) (plan : Option OutputPlan) (b : Batch) :
    Except Breakdown Unit × Transcript :=
  match plan, a.output with
  | some plan, _ => writeEntries console plan t b.entries
  | none, some path =>
    match t.disk.writeBytes path (batchText a.json b).toUTF8 with
    | .error fault => (.error (.file fault), t)
    | .ok disk => { t with disk }.tell console .err ["[green]✓[/] Written to " ++ path.toString]
  | none, none => (.ok (), t.print (batchText a.json b))

/-- Process the inputs and deliver the results. -/
def runBatch (console : Console) (t : Transcript) (a : Arguments) (settings : Settings)
    (bindings : Bindings) (plan : Option OutputPlan) (inputs : List Path) : Response :=
  let (result, l) := Batch.run settings.limits t.disk bindings inputs
  let t := t.addLog l.log
  match result with
  | .error refusal => t.breakDown (.refused refusal)
  | .ok b =>
    match deliver console t a plan b with
    | (.error e, t) => t.breakDown e
    | (.ok (), t) =>
      t.tellAndExit console (b.errors.map fun (path, f) => failureLine console path f) (if b.ok then 0 else 1)

/-! ## Steps -/

/-- The bindings of an options file on top of others.  What cannot be opened or is refused is reported. -/
def fileBindings (yaml : Yaml.Loader) (disk : Disk) (base : Bindings) :
    Option Path → Except OptionsStop Bindings
  | none => .ok base
  | some path =>
    match Bindings.load yaml disk path with
    | .ok b => .ok (base.merge b)
    | .error (.file fault) => .error (.reported fault.message)
    | .error e => if e.isVerdict then .error (.reported e.message) else .error (.broken (.load e))

/-- The bindings of the settings, overridden by the options file and then by options. -/
def gatherBindings (tools : Tools) (t : Transcript) (a : Arguments) (base : Bindings) :
    Except OptionsStop Bindings × Transcript :=
  match fileBindings tools.yaml t.disk base a.optionsFile with
  | .error stop => (.error stop, t)
  | .ok base =>
    match conditionTable a.conds with
    | .error stop => (.error stop, t)
    | .ok conditions =>
      match t.tell tools.console .err ((malformedConstants a.consts).map ignoredLine) with
      | (.error b, t) => (.error (.broken b), t)
      | (.ok (), t) => (.ok (base.merge ⟨conditions, constantTable a.consts⟩), t)

/-- Process the inputs after the options and the output plan have been settled. -/
def runProcess (tools : Tools) (t : Transcript) (a : Arguments) (settings : Settings)
    (inputs : List Path) : Response :=
  let console := tools.console
  match gatherBindings tools t a settings.bindings with
  | (.error (.broken b), t) => t.breakDown b
  | (.error (.reported message), t) =>
    t.tellAndExit console ["[bold red]Invalid options:[/] " ++ message] 2
  | (.ok bindings, t) =>
    match a.outDir with
    | none => runBatch console t a settings bindings none inputs
    | some folder =>
      match OutputPlan.make t.disk folder (a.dirs.filterMap id) inputs with
      | .ok plan => runBatch console t a settings bindings (some plan) inputs
      | .error (.unresolved (.endlessLinks path)) => t.breakDown (.file (.endlessLinks path))
      | .error e =>
        t.tellAndExit console ["[bold red]Conflicting outputs:[/] " ++ console.escape e.message] 2

/-- Find the shaders below the folders that options name, up to one without a value. -/
def gatherInputs (t : Transcript) (a : Arguments) : Except Breakdown (List Path) × Transcript :=
  let (found, log) := t.disk.findShaders ((a.dirs.takeWhile Option.isSome).filterMap id)
  let t := t.addLog log
  match found with
  | .error fault => (.error (.file fault), t)
  | .ok places =>
    if a.dirs.contains none then (.error .emptyFolder, t)
    else (.ok (a.shaders ++ places.map Place.path), t)

/-- Carry out what the arguments ask for under the settings. -/
def runMode (tools : Tools) (t : Transcript) (a : Arguments) (settings : Settings) : Response :=
  if a.env then
    match settings.describe with
    | .ok s => (t.print s).exit 0
    | .error limit => t.breakDown (.digits limit)
  else
    match gatherInputs t a with
    | (.error b, t) => t.breakDown b
    | (.ok inputs, t) =>
      if inputs.isEmpty then (t.tellPieces [.help]).exit 2
      else if a.output.isSome && 1 < inputs.length && a.format = .text then
        t.tellAndExit tools.console
          ["[bold red]--output with several shaders requires --format json or --out-dir.[/]"] 2
      else if a.scan then runScan tools.console t a.json inputs
      else runProcess tools t a settings inputs

/-- The settings with the options that override them. -/
def override (settings : Settings) (a : Arguments) : Settings :=
  match a.maxDepth with
  | none => settings
  | some n => { settings with limits := { settings.limits with importDepth := n } }

/-- Carry out the arguments. -/
def runArguments (tools : Tools) (t : Transcript) (a : Arguments) (interrupted : Bool) : Response :=
  if interrupted then t.tellAndExit tools.console ["\n[dim]Interrupted.[/]"] 130
  else
    let (result, log) := Settings.load t.disk t.disk.cwd.path
    let t := t.addLog log
    match result with
    | .error e =>
      if e.isVerdict then t.tellAndExit tools.console ["[bold red]Invalid configuration:[/] " ++ e.message] 2
      else t.breakDown (.load e)
    | .ok settings => runMode tools t a (override settings a)

/-- The records that the log shows: all of them, or warnings and errors. -/
def shownLog (verbose : Bool) (log : List LogRecord) : List LogRecord :=
  if verbose then log else log.filter fun r => r.level = .warning || r.level = .error

/-- The response to a command line.  `interrupted` tells that the user stops the command while it loads
the settings. -/
def run (tools : Tools) (disk : Disk) (words : List String) (interrupted : Bool) : Response :=
  let t := Transcript.start disk
  match Arguments.parse words with
  | .error .help => ({ t with out := [Piece.help] } : Transcript).exit 0
  | .error (.refused message) =>
    (t.tellPieces [.usage, .text ("wgslpp: error: " ++ message ++ "\n")]).exit 2
  | .ok a =>
    let (ending, t) := runArguments tools t a interrupted
    (ending, { t with log := shownLog a.verbose t.log })

end Command

end ShaderFlatten
