import ShaderFlatten.Number.Numeral
import ShaderFlatten.Number.Shortest
import ShaderFlatten.Table
import ShaderFlatten.Text.Quoted

/-!
# Values

Options documents, conditions and constants hold values of mixed type.  A mapping keeps its entries in
the order in which their names first appeared.

    Value.isTrue v     whether `v` counts as true
    Value.display v    `v` as messages show it
    Value.ofArgument s what a word of the command line denotes
-/

namespace ShaderFlatten

/-- A value of an options document. -/
inductive Value where
  | null
  | bool (b : Bool)
  | int (n : Int)
  | float (x : Binary64)
  | text (s : String)
  | list (items : List Value)
  | map (entries : List (String × Value))
  deriving Inhabited

/-- A refusal to convert between an integer and its decimal digits: there are too many of them. -/
inductive DigitLimit where
  /-- an integer is too long to be written -/
  | writing
  /-- a numeral of so many digits is too long to be read -/
  | reading (digits : Nat)
  deriving DecidableEq, Repr

/-- The wording of a refused conversion. -/
def DigitLimit.message (d : DigitLimit) : String :=
  let found :=
    match d with
    | .writing => ""
    | .reading digits => ": value has " ++ decimal digits ++ " digits"
  "Exceeds the limit (" ++ decimal Numeral.maxDigits ++ " digits) for integer string conversion"
    ++ found ++ "; use sys.set_int_max_str_digits() to increase the limit"

namespace Value

/-- Everything counts as true but null, false, zero and what is empty. -/
def isTrue : Value → Bool
  | null => false
  | bool b => b
  | int n => n != 0
  | float x => x.isNonzero
  | text s => s != ""
  | list items => !items.isEmpty
  | map entries => !entries.isEmpty

/-- The name of a value's type. -/
def typeName : Value → String
  | null => "NoneType"
  | bool _ => "bool"
  | int _ => "int"
  | float _ => "float"
  | text _ => "str"
  | list _ => "list"
  | map _ => "dict"

/-- An integer in decimal, unless it has too many digits. -/
def intText (n : Int) : Except DigitLimit String :=
  if Numeral.maxDigits < Binary64.digitCount n.natAbs then .error .writing else .ok (decimal n)

/-- Items in a row. -/
def row (items : List String) : String := ", ".intercalate items

/-- A list of shown items. -/
def shownList (items : List String) : String := "[" ++ row items ++ "]"

/-- A mapping, or a set, of shown entries. -/
def shownMap (entries : List String) : String := "\x7b" ++ row entries ++ "\x7d"

mutual

/-- A value as messages show it, however deeply it is nested: no stack is kept for it. -/
def display : Value → Except DigitLimit String
  | null => .ok "None"
  | bool true => .ok "True"
  | bool false => .ok "False"
  | int n => intText n
  | float x => .ok (String.ofList x.toText)
  | text s => .ok (quoted s)
  | list items => do return shownList (← displayItems items)
  | map entries => do return shownMap (← displayEntries entries)

/-- The items of a list as messages show them. -/
def displayItems : List Value → Except DigitLimit (List String)
  | [] => .ok []
  | v :: rest => do
    let shown ← display v
    return shown :: (← displayItems rest)

/-- The entries of a mapping as messages show them. -/
def displayEntries : List (String × Value) → Except DigitLimit (List String)
  | [] => .ok []
  | (name, v) :: rest => do
    let shown ← display v
    return (quoted name ++ ": " ++ shown) :: (← displayEntries rest)

end

/-- The truth value that a word spells, in any case of its letters. -/
def truthWord? (word : Text) : Option Bool :=
  let lowered := String.ofList (word.map Char.toLower)
  if lowered = "true" then some true
  else if lowered = "false" then some false
  else none

/-- What a word of the command line denotes: an integer if it spells one, else a floating-point
number, else a truth value, else the word itself. -/
def ofArgument (word : String) : Value :=
  match Numeral.int? word.toList with
  | some n => int n
  | none =>
    match Numeral.float? word.toList with
    | some x => float x
    | none =>
      match truthWord? word.toList with
      | some b => bool b
      | none => text word

end Value

/-- The truth value that a switch is set to: eight words, with blanks around and in any case. -/
def switchWord? (word : String) : Option Bool :=
  let lowered := String.ofList ((Text.trim word.toList).map Char.toLower)
  if lowered ∈ ["true", "yes", "on", "1"] then some true
  else if lowered ∈ ["false", "no", "off", "0"] then some false
  else none

end ShaderFlatten
