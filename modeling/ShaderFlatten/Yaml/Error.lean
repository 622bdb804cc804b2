import ShaderFlatten.Calendar
import ShaderFlatten.Value

/-!
# Why a YAML text has no value

A text may break the rules of YAML, which is one cause, or one of its scalars may not have the form that
its type asks for, and then the cause says which.
-/

namespace ShaderFlatten.Yaml

/-- Why a YAML text has no value. -/
inductive ReadError where
  /-- the text breaks a rule of YAML, or its nodes do not fit their tags -/
  | malformed
  /-- an escape names a code point that is none -/
  | noCharacter (code : Nat)
  | digits (limit : DigitLimit)
  | notInteger (base : Nat) (t : Text)
  | notFloat (t : Text)
  /-- a number has no character besides its sign -/
  | emptyNumber
  /-- a place of a number in base sixty is worth more than any floating-point number -/
  | placeTooLarge
  | notTruthValue (word : Text)
  | notTimestamp
  /-- a mapping with a default value stands where a timestamp is asked for -/
  | timestampOfMapping
  | noSuchTime (fault : CalendarFault)
  /-- nodes are nested too deeply -/
  | tooDeep
  deriving DecidableEq, Repr

namespace ReadError

/-- The greatest code point that is compared with the last one at all. -/
def maxCode : Nat := 0x7FFFFFFF

/-- The wording of an error. -/
def message : ReadError → String
  | malformed => "<yaml error>"
  | noCharacter code =>
    if maxCode < code then "Python int too large to convert to C int"
    else "chr() arg not in range(0x110000)"
  | digits limit => limit.message
  | notInteger base t =>
    "invalid literal for int() with base " ++ decimal base ++ ": "
      ++ String.ofList (t.quote.toList.take 200)
  | notFloat t => "could not convert string to float: " ++ t.quote
  | emptyNumber => "string index out of range"
  | placeTooLarge => "int too large to convert to float"
  | notTruthValue word => word.quote
  | notTimestamp => "'NoneType' object has no attribute 'groupdict'"
  | timestampOfMapping => "expected string or bytes-like object, got 'list'"
  | noSuchTime fault => fault.message
  | tooDeep => "maximum recursion depth exceeded"

/-- The errors that a value of a wrong form leads to.  The others are no verdict on the document. -/
def isVerdict : ReadError → Bool
  | noCharacter code => code ≤ maxCode
  | malformed | digits _ | notInteger .. | notFloat _ | noSuchTime _ => true
  | emptyNumber | placeTooLarge | notTruthValue _ | notTimestamp | timestampOfMapping | tooDeep => false

end ReadError

end ShaderFlatten.Yaml
