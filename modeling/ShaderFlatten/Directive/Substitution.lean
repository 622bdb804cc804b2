import ShaderFlatten.Halt

/-!
# Constants in lines

The first placeholder of a line is replaced by the text of the constant that it names; what follows it
is left alone.

    Line.substitute (a ++ "#(" ++ n ++ ")" ++ b) = a ++ text of n ++ b
-/

namespace ShaderFlatten

/-- A constant as it stands in shader source.  Truth values are written as the language has them. -/
def Value.render : Value → Except Halt String
  | .bool b => .ok (if b then "true" else "false")
  | .int n =>
    match Value.intText n with
    | .ok s => .ok s
    | .error limit => .error (.refused (.digits limit))
  | .float x => .ok (String.ofList x.toText)
  | .text s => .ok s
  | v => .error (.ofCause (.unrenderable v.typeName))

/-- A line may have so many characters after substitution. -/
def exceeds (limit : Option Int) (line : Text) : Option Int :=
  limit.filter fun n => n < (line.length : Int)

/-- A line with its first placeholder replaced by the constant it names. -/
def Line.substitute (line : Text) (constants : Table Value) (limit : Option Int) :
    Except Halt Text :=
  match Line.placeholder? line with
  | .error mismatch => .error (.ofCause (.malformedPlaceholder mismatch))
  | .ok none => .ok line
  | .ok (some found) =>
    match constants.get? (String.ofList found.name) with
    | none => .error (.ofCause (.unknownConstant found.name))
    | some value =>
      match value.render with
      | .error halt => .error halt
      | .ok rendered =>
        let result := line.take found.start ++ rendered.toList ++ line.drop found.stop
        match exceeds limit result with
        | some n => .error (.ofCause (.lineTooLong n found.name))
        | none => .ok result

end ShaderFlatten
