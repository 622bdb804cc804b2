import ShaderFlatten.Value

/-!
# Bindings

What a run may refer to: named conditions and named constants.  An options document is a mapping with a
mapping of conditions, all of them truth values, and a mapping of constants, all of them numbers, truth
values or texts; either may be left out.

    Bindings.ofEntries r c d    the bindings of two mappings whose entries `r` reads
    Bindings.ofValue v          the bindings of a document
-/

namespace ShaderFlatten

/-- Named conditions and named constants. -/
structure Bindings where
  conditions : Table Value
  constants : Table Value

/-- Why an options document is refused. -/
inductive OptionsError where
  | notMappings
  | badCondition (name shown : String)
  | badConstant (name shown : String)
  | badLimit (key shown : String)
  /-- an integer has too many digits to be shown -/
  | digits (limit : DigitLimit)
  /-- a refused value is nested too deeply to be shown -/
  | tooDeep
  deriving DecidableEq, Repr

/-- The wording of a refusal. -/
def OptionsError.message : OptionsError → String
  | .notMappings => "'conditions' and 'constants' must be mappings"
  | .badCondition name shown => "Condition '" ++ name ++ "' must be true or false, got " ++ shown
  | .badConstant name shown =>
    "Constant '" ++ name ++ "' must be a number, boolean or string, got " ++ shown
  | .badLimit key shown => "'" ++ key ++ "' must be a non-negative integer, got " ++ shown
  | .digits limit => limit.message
  | .tooDeep => "maximum recursion depth exceeded while getting the repr of an object"

namespace Value

/-- The values that a condition may have. -/
def isCondition : Value → Bool
  | bool _ => true
  | _ => false

/-- The values that a constant may have. -/
def isConstant : Value → Bool
  | bool _ | int _ | float _ | text _ => true
  | _ => false

/-- A value as a refusal shows it. -/
def shown (v : Value) : Except OptionsError String := v.display.mapError .digits

/-- The entries of the mapping that a document keeps under a name; what counts as false is an empty one.
Nothing if something else is kept there. -/
def part? (name : String) (document : Table Value) : Option (Table Value) :=
  match document.get? name with
  | none => some []
  | some (map entries) => some entries
  | some v => if v.isTrue then none else some []

end Value

/-- How the entries of a mapping are read: the text of a key, the value of a thing that has one, and a
thing as a refusal shows it. -/
structure EntryReader (κ α : Type) where
  name : κ → Except OptionsError String
  value? : α → Option Value
  shown : α → Except OptionsError String

namespace EntryReader

variable {κ α : Type}

/-- Check the entries of a mapping, in order; only the first refused one is shown. -/
def check (r : EntryReader κ α) (allowed : Value → Bool)
    (refuse : String → String → OptionsError) : List (κ × α) → Except OptionsError Unit
  | [] => .ok ()
  | (key, a) :: rest =>
    if (r.value? a).any allowed then check r allowed refuse rest
    else do
      let name ← r.name key
      throw (refuse name (← r.shown a))

/-- The entries of a mapping as a table; keys with the same text are one name, and the last wins. -/
def toTable (r : EntryReader κ α) (entries : List (κ × α)) : Except OptionsError (Table Value) :=
  entries.foldlM (fun done (key, a) => do
    let name ← r.name key
    return done.insert name ((r.value? a).getD .null)) []

/-- The entries of a table of values. -/
def ofTable : EntryReader String Value := ⟨.ok, some, Value.shown⟩

end EntryReader

namespace Bindings

/-- No bindings. -/
def empty : Bindings := ⟨[], []⟩

/-- The bindings of two layers; the second one wins. -/
def merge (a b : Bindings) : Bindings :=
  ⟨a.conditions.merge b.conditions, a.constants.merge b.constants⟩

/-- The bindings of a mapping of conditions and a mapping of constants; nothing stands for what is no
mapping. -/
def ofEntries {κ α : Type} (r : EntryReader κ α) (conditions constants : Option (List (κ × α))) :
    Except OptionsError Bindings :=
  match conditions, constants with
  | some conditions, some constants => do
    r.check Value.isCondition .badCondition conditions
    r.check Value.isConstant .badConstant constants
    return ⟨← r.toTable conditions, ← r.toTable constants⟩
  | _, _ => .error .notMappings

/-- The bindings of an options document.  A document that is no mapping binds nothing. -/
def ofValue : Value → Except OptionsError Bindings
  | .map document =>
    ofEntries .ofTable (Value.part? "conditions" document) (Value.part? "constants" document)
  | _ => .ok empty

end Bindings

end ShaderFlatten
