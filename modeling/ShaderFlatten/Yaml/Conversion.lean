import ShaderFlatten.Text.Base64
import ShaderFlatten.Text.LetterCase
import ShaderFlatten.Yaml.Atom
import ShaderFlatten.Yaml.Error
import ShaderFlatten.Yaml.Tag

/-!
# The value of a scalar

What a text is worth as a scalar of a type.  Underscores in numbers mean nothing; an integer may be
written in base 2, 8, 10 or 16 or in groups of base sixty, a floating-point number in decimal or in
groups of base sixty.

    Atom.ofScalar tag origin t    the text `t` of the node `origin` as a scalar of a type
-/

namespace ShaderFlatten.Yaml

/-! ## Integers -/

/-- An integer in a base. -/
def intIn (base : Nat) (t : Text) : Except ReadError Int :=
  match Numeral.readIntIn base t with
  | .value n => .ok n
  | .tooLong digits => .error (.digits (.reading digits))
  | .malformed => .error (.notInteger base t)

/-- An integer without underscores and sign. -/
def unsignedInt (t : Text) : Except ReadError Int :=
  match t with
  | [] => .error .emptyNumber
  | ['0'] => .ok 0
  | '0' :: 'b' :: rest => intIn 2 rest
  | '0' :: 'x' :: rest => intIn 16 rest
  | '0' :: _ => intIn 8 t
  | _ =>
    if t.contains ':' then do
      let groups ← (Text.split ':' t).mapM (intIn 10)
      return groups.foldl (fun n group => 60 * n + group) 0
    else intIn 10 t

/-- A text without underscores. -/
def withoutBars (t : Text) : Text := t.filter (· != '_')

/-- The integer that a scalar spells. -/
def intValue (t : Text) : Except ReadError Int := do
  let (negative, body) := Numeral.splitSign (withoutBars t)
  let n ← unsignedInt body
  return if negative then -n else n

/-! ## Floating-point numbers -/

/-- A floating-point number in decimal. -/
def floatPart (t : Text) : Except ReadError Binary64 :=
  match Numeral.float? t with
  | some x => .ok x
  | none => .error (.notFloat t)

/-- The number that groups of base sixty spell, the last group first.  Every place has to be worth less
than the largest number, even if its digit is zero. -/
def sixtieths (total : Binary64) (place : Nat) : List Binary64 → Except ReadError Binary64
  | [] => .ok total
  | digit :: rest =>
    match Binary64.ofRatio false place 1 with
    | .finite .. => sixtieths (total.add (digit.scale place)) (60 * place) rest
    | _ => .error .placeTooLarge

/-- The number that a scalar spells in lower case without its sign. -/
def unsignedFloat (t : Text) : Except ReadError Binary64 :=
  if t = ".inf".toList then .ok (.infinite false)
  else if t.contains ':' then do
    let parts ← (Text.split ':' t).mapM floatPart
    sixtieths (.zero false) 1 parts.reverse
  else floatPart t

/-- The floating-point number that a scalar of a node spells. -/
def floatValue (origin : Nat) (t : Text) : Except ReadError Atom := do
  let lowered := Text.lower (withoutBars t)
  if lowered.isEmpty then throw .emptyNumber
  let (negative, body) := Numeral.splitSign lowered
  if body = ".nan".toList then return .nan none
  match ← unsignedFloat body with
  | .nan => return .nan (some origin)
  | x => return .float (if negative then x.neg else x)

/-! ## Other scalars -/

/-- The truth value that a scalar spells, in any case of its letters. -/
def boolValue (t : Text) : Except ReadError Bool :=
  let word := Text.lower t
  if Tag.trueWords.contains word then .ok true
  else if Tag.falseWords.contains word then .ok false
  else .error (.notTruthValue word)

/-- The bytes that a scalar spells; it is all ASCII. -/
def bytesValue (t : Text) : Except ReadError (List UInt8) :=
  if t.all (·.toNat < 0x80) then
    match Base64.decode? t with
    | some content => .ok content
    | none => .error .malformed
  else .error .malformed

/-- The date or the moment that a scalar spells. -/
def timestampValue (t : Text) : Except ReadError Atom :=
  match Timestamp.parse? (Tag.dropLineFeed t) with
  | none => .error .notTimestamp
  | some s =>
    match s.time with
    | none =>
      match Date.make? s.date.1 s.date.2.1 s.date.2.2 with
      | .ok d => .ok (.date d)
      | .error fault => .error (.noSuchTime fault)
    | some time =>
      match Moment.make? s.date time.clock (Timestamp.microseconds time.fraction) time.offset with
      | .ok m => .ok (.moment m)
      | .error fault => .error (.noSuchTime fault)

/-- The text of a node as a scalar of a type; the types of collections and the special keys have no
scalars. -/
def Atom.ofScalar (tag : Tag) (origin : Nat) (t : Text) : Except ReadError Atom :=
  match tag with
  | .null => .ok .null
  | .bool => do return .bool (← boolValue t)
  | .int => do return .int (← intValue t)
  | .float => floatValue origin t
  | .text => .ok (.text (String.ofList t))
  | .binary => do return .bytes (← bytesValue t)
  | .timestamp => timestampValue t
  | .list | .map | .set | .orderedMap | .pairs | .merge | .default | .unknown => .error .malformed

end ShaderFlatten.Yaml
