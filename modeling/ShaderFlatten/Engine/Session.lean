import ShaderFlatten.Engine.Flatten

/-!
# Engines

An engine keeps the cache of finished files from one request to the next, together with its limits.
The size limit for files is taken from the limits it is made with and does not change with them.
-/

namespace ShaderFlatten

/-- A preprocessing engine. -/
structure Engine where
  limits : Limits
  readLimit : Option Int
  cache : Table Text

namespace Engine

/-- An engine that has not processed anything. -/
def create (limits : Limits) : Engine := ⟨limits, limits.fileBytes, []⟩

/-- What stays the same while an engine serves a request. -/
def setting (engine : Engine) (disk : Disk) (bindings : Bindings) : Setting :=
  ⟨disk, bindings, engine.limits, engine.readLimit⟩

/-- Process the shader that a request denotes.  The ledger tells what happened; the engine keeps its
cache. -/
def process (engine : Engine) (disk : Disk) (bindings : Bindings) (request : String) :
    Outcome Text × Engine :=
  let outcome := Flatten.request (engine.setting disk bindings) request (.ofCache engine.cache)
  (outcome, { engine with cache := outcome.2.cache })

/-- Put a text into the cache. -/
def store (engine : Engine) (key : String) (text : Text) : Outcome Unit × Engine :=
  let outcome := Flatten.store key text (.ofCache engine.cache)
  (outcome, { engine with cache := outcome.2.cache })

/-- The keys of the cache in order of their characters. -/
def cachedKeys (engine : Engine) : List String := engine.cache.names.mergeSort (fun a b => a ≤ b)

end Engine

end ShaderFlatten
