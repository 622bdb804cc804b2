import ShaderFlatten.Calendar
import ShaderFlatten.Number.Numeral

/-!
# YAML timestamps

A timestamp is a date, or a date and a time of day with a fraction of a second and an offset that may be
left out.  Where the text alone decides that a scalar is a timestamp, a date on its own needs two digits
for its month and its day.

    Timestamp.parse? t    the parts of a timestamp
-/

namespace ShaderFlatten.Yaml

/-- A time of day as written: three numbers, the digits of a fraction, and an offset in minutes. -/
structure TimeOfDay where
  clock : Nat × Nat × Nat
  fraction : Text
  offset : Option Int
  deriving DecidableEq, Repr

/-- A timestamp as written. -/
structure Timestamp where
  date : Nat × Nat × Nat
  /-- month and day have two digits each -/
  full : Bool
  time : Option TimeOfDay
  deriving DecidableEq, Repr

namespace Timestamp

/-- So many digits, at least and at most, in front of a text: their number and value, and the rest. -/
def digits? (least most : Nat) (t : Text) : Option (Nat × Nat × Text) :=
  let found := (t.takeWhile Char.isDigit).take most
  if least ≤ found.length then
    some (found.length, Numeral.digitsValue found, t.drop found.length)
  else none

/-- The rest of a text behind a character. -/
def after? (mark : Char) : Text → Option Text
  | c :: rest => if c = mark then some rest else none
  | [] => none

/-- The minutes of an offset, if a colon stands in front of them. -/
def offsetMinutes? : Text → Option (Nat × Text)
  | ':' :: rest => (digits? 2 2 rest).map fun (_, n, rest) => (n, rest)
  | t => some (0, t)

/-- An offset up to the end of the text: a letter for none, or a sign and hours. -/
def offset? (t : Text) : Option Int :=
  match t with
  | ['Z'] => some 0
  | sign :: rest => do
    guard (sign = '+' || sign = '-')
    let (_, hours, rest) ← digits? 1 2 rest
    let (minutes, rest) ← offsetMinutes? rest
    guard rest.isEmpty
    let total : Int := (60 * hours + minutes : Nat)
    return if sign = '-' then -total else total
  | [] => none

/-- A fraction of a second: a point and digits, which may be missing. -/
def fraction (t : Text) : Text × Text :=
  match t with
  | '.' :: rest => (rest.takeWhile Char.isDigit, rest.dropWhile Char.isDigit)
  | _ => ([], t)

/-- A time of day up to the end of the text. -/
def time? (t : Text) : Option TimeOfDay := do
  let (_, hour, t) ← digits? 1 2 t
  let (_, minute, t) ← digits? 2 2 (← after? ':' t)
  let (_, second, t) ← digits? 2 2 (← after? ':' t)
  let (fraction, t) := fraction t
  if t.isEmpty then return ⟨(hour, minute, second), fraction, none⟩
  else return ⟨(hour, minute, second), fraction, some (← offset? (t.dropWhile Text.isHorizontal))⟩

/-- What stands between a date and a time of day is skipped: a letter, or blanks. -/
def timeStart? (t : Text) : Option Text :=
  match t with
  | [] => none
  | c :: rest =>
    if c = 'T' || c = 't' then some rest
    else if Text.isHorizontal c then some (rest.dropWhile Text.isHorizontal)
    else none

/-- A timestamp. -/
def parse? (t : Text) : Option Timestamp := do
  let (_, year, t) ← digits? 4 4 t
  let (monthWidth, month, t) ← digits? 1 2 (← after? '-' t)
  let (dayWidth, day, t) ← digits? 1 2 (← after? '-' t)
  let full := monthWidth = 2 && dayWidth = 2
  if t.isEmpty then return ⟨(year, month, day), full, none⟩
  else return ⟨(year, month, day), full, some (← time? (← timeStart? t))⟩

/-- A text that is a timestamp without being asked to be one. -/
def isPlain (t : Text) : Bool := (parse? t).any fun s => s.full || s.time.isSome

/-- The microseconds of a fraction: its first six digits, filled with zeros. -/
def microseconds (fraction : Text) : Nat :=
  Numeral.digitsValue ((fraction ++ List.replicate 6 '0').take 6)

end Timestamp

end ShaderFlatten.Yaml
