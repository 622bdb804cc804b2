import ShaderFlatten.Failure
import ShaderFlatten.Table

/-!
# Ledgers

A ledger is what a run leaves behind besides its text: the cache of finished files, the files that were
asked for, the log and the reports.  Everything is added at the end, and the cache never loses an entry.
-/

namespace ShaderFlatten

/-- How important a log record is. -/
inductive Level where
  | debug
  | info
  | warning
  | error
  deriving DecidableEq, Repr

/-- The name of a level. -/
def Level.name : Level → String
  | .debug => "DEBUG"
  | .info => "INFO"
  | .warning => "WARNING"
  | .error => "ERROR"

/-- A log record: its level, the part of the program it comes from, and its message. -/
structure LogRecord where
  level : Level
  source : String
  message : String
  deriving DecidableEq, Repr

/-- The names under which the parts of the program write to the log. -/
structure LogSource where
  run : String
  files : String
  batch : String
  settings : String

/-- Where log records come from. -/
def logSource : LogSource where
  run := "wgslpp.preprocessor"
  files := "wgslpp.files"
  batch := "wgslpp.discovery.catalog"
  settings := "wgslpp.discovery.config"

/-- What a run leaves behind. -/
structure Ledger where
  /-- finished texts by canonical path -/
  cache : Table Text
  /-- the canonical paths that were asked for, in order -/
  reads : List String
  log : List LogRecord
  reported : List Diagnostic

namespace Ledger

/-- A ledger that has only a cache. -/
def ofCache (cache : Table Text) : Ledger := ⟨cache, [], [], []⟩

/-- Add a log record. -/
def note (l : Ledger) (record : LogRecord) : Ledger := { l with log := l.log ++ [record] }

/-- Note that a file is asked for. -/
def addRead (l : Ledger) (path : String) : Ledger := { l with reads := l.reads ++ [path] }

/-- The log record of a failure at a position. -/
def failureRecord (f : Failure) (path : String) (line : Option NumberedLine) : LogRecord :=
  ⟨.error, logSource.run, f.message ++ "\n" ++ path ++
    match line with
    | none => ""
    | some (n, t) => " (line " ++ decimal n ++ "): " ++ String.ofList t⟩

/-- Report a failure at a position: it is logged, and it takes the report along. -/
def report (l : Ledger) (f : Failure) (path : String) (line : Option NumberedLine) :
    Failure × Ledger :=
  (f.report path line,
    { l.note (failureRecord f path line) with reported := l.reported ++ [f.diagnostic path line] })

end Ledger

end ShaderFlatten
