import ShaderFlatten.Yaml.Timestamp

/-!
# YAML types

Every node has a type.  A tag may name it; otherwise a sequence is a list, a mapping is a mapping, and
the text of a plain scalar decides: the empty text and the words for null, the words for truth values,
integers in four bases and in groups of sixty, floating-point numbers, which need a point, timestamps,
the two special keys, and all else is text.

    Tag.ofText t    the type of a plain scalar
    Tag.ofName n    the type that a full tag names
-/

namespace ShaderFlatten.Yaml

/-- The types of nodes. -/
inductive Tag where
  | null
  | bool
  | int
  | float
  | text
  | binary
  | timestamp
  | list
  | map
  | set
  /-- a list of pairs, whose keys are in order -/
  | orderedMap
  | pairs
  /-- the key that merges other mappings -/
  | merge
  /-- the key for a default value -/
  | default
  /-- any other name, for which there are no values -/
  | unknown
  deriving DecidableEq, Repr

namespace Tag

/-- The words for null. -/
def nullWords : List Text := ["", "~", "null", "Null", "NULL"].map String.toList

/-- The words for true. -/
def trueWords : List Text := ["yes", "Yes", "YES", "true", "True", "TRUE", "on", "On", "ON"].map String.toList

/-- The words for false. -/
def falseWords : List Text := ["no", "No", "NO", "false", "False", "FALSE", "off", "Off", "OFF"].map String.toList

/-- The words for the infinite numbers without their sign. -/
def infiniteWords : List Text := [".inf", ".Inf", ".INF"].map String.toList

/-- The words for what is no number. -/
def nanWords : List Text := [".nan", ".NaN", ".NAN"].map String.toList

/-- The indicators that are no values when they stand alone. -/
def loneIndicators : List Text := ["!", "&", "*"].map String.toList

/-- A text without the sign in front. -/
def unsigned (t : Text) : Text := (Numeral.splitSign t).2

/-- A digit or an underscore. -/
def isDigitOrBar (c : Char) : Bool := c.isDigit || c == '_'

/-- A digit, and then digits and underscores. -/
def isDigits : Text → Bool
  | [] => false
  | c :: rest => c.isDigit && rest.all isDigitOrBar

/-- A group of a number in base sixty: one digit, or two of which the first is at most five. -/
def isSixtieth (t : Text) : Bool :=
  match t with
  | [a] => a.isDigit
  | [a, b] => '0' ≤ a && a ≤ '5' && b.isDigit
  | _ => false

/-- An integer in decimal that starts with no zero. -/
def isPositiveDecimal (t : Text) : Bool := isDigits t && t.head? != some '0'

/-- An integer without its sign. -/
def isUnsignedInt (t : Text) : Bool :=
  match t with
  | ['0'] => true
  | '0' :: 'b' :: rest => !rest.isEmpty && rest.all fun c => c == '0' || c == '1' || c == '_'
  | '0' :: 'x' :: rest => !rest.isEmpty && rest.all fun c => (Text.hexValue? c).isSome || c == '_'
  | '0' :: rest => rest.all fun c => ('0' ≤ c && c ≤ '7') || c == '_'
  | t =>
    match Text.split ':' t with
    | [] => false
    | first :: groups => isPositiveDecimal first && groups.all isSixtieth

/-- An exponent with its sign, or nothing. -/
def isExponent : Text → Bool
  | [] => true
  | mark :: sign :: digits =>
    (mark == 'e' || mark == 'E') && (sign == '+' || sign == '-') && !digits.isEmpty
      && digits.all Char.isDigit
  | _ => false

/-- Digits and underscores behind a point, and an exponent. -/
def isFractionTail (t : Text) : Bool := isExponent (t.dropWhile isDigitOrBar)

/-- Digits, a point, and a fraction that may be empty. -/
def isPointFloat (t : Text) : Bool :=
  isDigits (t.takeWhile isDigitOrBar) &&
    match t.dropWhile isDigitOrBar with
    | '.' :: rest => isFractionTail rest
    | _ => false

/-- Groups of base sixty with a point and a fraction behind the last one. -/
def isSixtiethFloat (t : Text) : Bool :=
  match Text.split ':' (t.takeWhile (· != '.')), t.dropWhile (· != '.') with
  | first :: second :: groups, '.' :: fraction =>
    isDigits first && (second :: groups).all isSixtieth && fraction.all isDigitOrBar
  | _, _ => false

/-- A floating-point number. -/
def isFloat (t : Text) : Bool :=
  isPointFloat (unsigned t) || isSixtiethFloat (unsigned t) || infiniteWords.contains (unsigned t)
    || nanWords.contains t ||
    match t with
    | '.' :: c :: rest => c.isDigit && isFractionTail rest
    | _ => false

/-- The type of a text that ends in no line feed. -/
def ofLine (t : Text) : Tag :=
  if nullWords.contains t then null
  else if trueWords.contains t || falseWords.contains t then bool
  else if isFloat t then float
  else if isUnsignedInt (unsigned t) then int
  else if Timestamp.isPlain t then timestamp
  else if t = ['<', '<'] then merge
  else if t = ['='] then default
  else if loneIndicators.contains t then unknown
  else text

/-- A text without the line feed at its end, if there is one and something in front of it. -/
def dropLineFeed (t : Text) : Text :=
  if t.getLast? = some '\n' && 1 < t.length then t.dropLast else t

/-- The type of a plain scalar.  One line feed at its end does not count. -/
def ofText (t : Text) : Tag := ofLine (dropLineFeed t)

/-- The names of the types. -/
def names : List (String × Tag) :=
  [("null", null), ("bool", bool), ("int", int), ("float", float), ("str", text), ("binary", binary),
    ("timestamp", timestamp), ("seq", list), ("map", map), ("set", set), ("omap", orderedMap),
    ("pairs", pairs), ("merge", merge), ("value", default)]

/-- The type that a full tag names. -/
def ofName (name : Text) : Tag :=
  ((names.find? fun (word, _) => "tag:yaml.org,2002:".toList ++ word.toList = name).map (·.2)).getD
    unknown

end Tag

end ShaderFlatten.Yaml
