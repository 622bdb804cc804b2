import ShaderFlatten.Calendar
import ShaderFlatten.Value

/-!
# YAML scalars as values

A scalar is null, a truth value, a number, a text, bytes, a date or a moment.  Scalars can be keys of
mappings, and then numbers are compared by what they are worth, whatever their type.

    Atom.display a    `a` as messages show it
    Atom.text a       `a` as the name of an entry
-/

namespace ShaderFlatten.Yaml

/-- The value of a scalar. -/
inductive Atom where
  | null
  | bool (b : Bool)
  | int (n : Int)
  | float (x : Binary64)
  /-- what is no number; two of them are the same only if they come from the same node, or both from
  the word for it -/
  | nan (origin : Option Nat)
  | text (s : String)
  | bytes (content : List UInt8)
  | date (d : Date)
  | moment (m : Moment)
  deriving DecidableEq, Repr

namespace Atom

/-- The value of a scalar that can be a condition or a constant, or null. -/
def value? : Atom → Option Value
  | null => some .null
  | bool b => some (.bool b)
  | int n => some (.int n)
  | float x => some (.float x)
  | nan _ => some (.float .nan)
  | text s => some (.text s)
  | bytes _ | date _ | moment _ => none

/-- Everything counts as true but null, false, zero and what is empty. -/
def isTrue : Atom → Bool
  | bytes content => !content.isEmpty
  | date _ | moment _ => true
  | a => (a.value?).any Value.isTrue

/-- A scalar as messages show it. -/
def display : Atom → Except DigitLimit String
  | bytes content => .ok (Text.quoteBytes content)
  | date d => .ok d.display
  | moment m => .ok m.display
  | a =>
    match a.value? with
    | some v => v.display
    | none => .ok ""

/-- A scalar as text: a text, a date and a moment have one of their own, everything else is shown. -/
def name : Atom → Except DigitLimit String
  | text s => .ok s
  | date d => .ok d.text
  | moment m => .ok m.text
  | a => a.display

/-- The integer that a truth value, an integer or a floating-point number equals, if it does. -/
def integer? : Atom → Option Int
  | bool b => some (if b then 1 else 0)
  | int n => some n
  | float x => x.toInt?
  | _ => none

/-- The same key of a mapping. -/
def sameKey : Atom → Atom → Bool
  | float x, float y => x.sameNumber y
  | moment m, moment n => m.sameInstant n
  | a, b =>
    match a.integer?, b.integer? with
    | some m, some n => m == n
    | _, _ => a == b

/-- Bind a key: an entry with the same key keeps its key and place and takes the new thing. -/
def bind {α : Type} : List (Atom × α) → Atom → α → List (Atom × α)
  | [], key, a => [(key, a)]
  | (k, b) :: rest, key, a => if k.sameKey key then (k, a) :: rest else (k, b) :: bind rest key a

end Atom

end ShaderFlatten.Yaml
