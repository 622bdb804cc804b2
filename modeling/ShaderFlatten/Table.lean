/-!
# Tables

A table binds names to things and remembers the order in which the names were first bound.
-/

namespace ShaderFlatten

/-- Names bound to things, in the order of their first binding. -/
abbrev Table (α : Type) := List (String × α)

namespace Table

variable {α : Type}

/-- The thing bound to a name. -/
def get? (t : Table α) (name : String) : Option α :=
  match t with
  | [] => none
  | (n, a) :: rest => if n = name then some a else get? rest name

/-- Bind a name: a name already bound keeps its place and takes the new thing. -/
def insert (t : Table α) (name : String) (a : α) : Table α :=
  match t with
  | [] => [(name, a)]
  | (n, b) :: rest => if n = name then (n, a) :: rest else (n, b) :: insert rest name a

/-- The bindings of two tables; the second one wins. -/
def merge (t u : Table α) : Table α := u.foldl (fun done (n, a) => insert done n a) t

/-- The bound names. -/
def names (t : Table α) : List String := t.map (·.1)

end Table

end ShaderFlatten
