import ShaderFlatten.Digest.Sha256
import ShaderFlatten.Engine.Session

/-!
# Batches

A batch processes a list of shaders with one engine, so that a file that several of them import is
read once.  A failing shader does not stop the batch; a refusal does.
-/

namespace ShaderFlatten

/-- The results of a batch: texts in the order of the inputs, and the last failure of each input that
failed, in the order of first failures. -/
structure Batch where
  entries : List (Path × Text)
  errors : List (Path × Failure)

/-- The digest of a processed text. -/
def contentDigest (text : Text) : String := Sha256.hexDigest (Text.encode text)

namespace Batch

/-- No results. -/
def empty : Batch := ⟨[], []⟩

/-- Nothing failed. -/
def ok (b : Batch) : Bool := b.errors.isEmpty

/-- Record the failure of an input in place of an earlier one. -/
def putError (errors : List (Path × Failure)) (path : Path) (failure : Failure) :
    List (Path × Failure) :=
  match errors with
  | [] => [(path, failure)]
  | (p, f) :: rest => if p = path then (p, failure) :: rest else (p, f) :: putError rest path failure

/-- The log record that ends a batch. -/
def record (b : Batch) : LogRecord :=
  ⟨.info, logSource.batch, "Processed " ++ decimal b.entries.length ++ " shader(s), "
    ++ decimal b.errors.length ++ " failed"⟩

/-- Process further inputs after the results so far. -/
def runFrom (s : Setting) (b : Batch) : List Path → Ledger → Except Refusal Batch × Ledger
  | [], l => (.ok b, l.note b.record)
  | path :: rest, l =>
    match Flatten.request s path.toString l with
    | (.ok text, l) => runFrom s { b with entries := b.entries ++ [(path, text)] } rest l
    | (.error (.failed failure), l) =>
      runFrom s { b with errors := putError b.errors path failure } rest l
    | (.error (.refused refusal), l) => (.error refusal, l)

/-- Process a list of inputs with a new engine. -/
def run (limits : Limits) (disk : Disk) (bindings : Bindings) (paths : List Path) :
    Except Refusal Batch × Ledger :=
  runFrom ((Engine.create limits).setting disk bindings) empty paths (.ofCache [])

end Batch

end ShaderFlatten
