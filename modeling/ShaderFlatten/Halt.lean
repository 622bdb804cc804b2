import ShaderFlatten.Engine.Limits
import ShaderFlatten.Failure
import ShaderFlatten.Value

/-!
# Halts

Why a run ends without a text: a failure, which is reported where it arose, or a refusal, which is not a
verdict on the shader and passes through unreported.
-/

namespace ShaderFlatten

/-- A refusal. -/
inductive Refusal where
  /-- an integer has too many digits to be written -/
  | digits (limit : DigitLimit)
  /-- a requested path holds a character that no name can hold -/
  | unnameable
  /-- imports are limited to a depth that is no number -/
  | depth (found : Depth)
  deriving DecidableEq, Repr

/-- The type of what stands for the depth of imports. -/
def Depth.typeName : Depth → String
  | .levels _ => "int"
  | .unset => "NoneType"
  | .emptied => "list"

/-- The wording of a refusal. -/
def Refusal.message : Refusal → String
  | .digits limit => limit.message
  | .unnameable => Fault.unnameable.message
  | .depth found => "'<' not supported between instances of 'int' and '" ++ found.typeName ++ "'"

/-- Why a line or a file yields no text. -/
inductive Halt where
  | failed (failure : Failure)
  | refused (refusal : Refusal)
  deriving DecidableEq, Repr

/-- A cause as a halt. -/
def Halt.ofCause (cause : Cause) : Halt := .failed (.ofCause cause)

end ShaderFlatten
