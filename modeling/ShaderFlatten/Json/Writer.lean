import ShaderFlatten.Text.Basic

/-!
# Writing JSON

Reports are written as JSON with an indent of two spaces.  Only the quote, the backslash and the control
characters are escaped; an empty collection stands on one line.
-/

namespace ShaderFlatten

/-- A JSON value to be written. -/
inductive Report where
  | null
  | number (n : Nat)
  | text (s : String)
  | list (items : List Report)
  | record (fields : List (String × Report))

namespace Report

/-- A character inside a written string. -/
def escapeChar (c : Char) : Text :=
  if c = '\"' then ['\\', '\"']
  else if c = '\\' then ['\\', '\\']
  else if c = '\n' then ['\\', 'n']
  else if c = '\r' then ['\\', 'r']
  else if c = '\t' then ['\\', 't']
  else if c = Char.ofNat 8 then ['\\', 'b']
  else if c = Char.ofNat 12 then ['\\', 'f']
  else if c.toNat < 0x20 then '\\' :: 'u' :: (hexadecimal 4 c.toNat).toList
  else [c]

/-- A written string. -/
def quoteText (s : String) : String :=
  String.ofList ('\"' :: s.toList.flatMap escapeChar ++ ['\"'])

/-- A line end and the indent of a depth. -/
def newline (depth : Nat) : String := "\n" ++ String.ofList (List.replicate (2 * depth) ' ')

/-- Written parts between two brackets, each on a line of its own. -/
def block (opening closing : String) (depth : Nat) (parts : List String) : String :=
  if parts.isEmpty then opening ++ closing
  else
    opening ++ newline (depth + 1) ++ ("," ++ newline (depth + 1)).intercalate parts
      ++ newline depth ++ closing

mutual

/-- A written value at a depth. -/
def render (depth : Nat) : Report → String
  | null => "null"
  | number n => decimal n
  | text s => quoteText s
  | list items => block "[" "]" depth (renderItems (depth + 1) items)
  | record fields => block "\x7b" "\x7d" depth (renderFields (depth + 1) fields)

/-- The written items of a list. -/
def renderItems (depth : Nat) : List Report → List String
  | [] => []
  | item :: rest => render depth item :: renderItems depth rest

/-- The written fields of a record. -/
def renderFields (depth : Nat) : List (String × Report) → List String
  | [] => []
  | (name, item) :: rest =>
    (quoteText name ++ ": " ++ render depth item) :: renderFields depth rest

end

/-- A value as JSON. -/
def toJson (r : Report) : String := r.render 0

/-- A value that may be missing. -/
def optional {α : Type} (f : α → Report) : Option α → Report
  | none => null
  | some a => f a

end Report

end ShaderFlatten
