import ShaderFlatten.Yaml.Atom

/-!
# The order of sets

A set shows its members in the order of the slots of a table.  A number goes to the slot that its residue
names or, if that is taken, to one near it, or else to one that the residue leads to by a fixed walk.
Members that are no numbers are not moved: a set that has one keeps the order in which it was written.

    SetOrder.arrange items    the members of a set in the order in which it shows them
-/

namespace ShaderFlatten.Yaml.SetOrder

/-- The prime modulo which numbers are counted. -/
def modulus : Nat := Nat.pow 2 61 - 1

/-- The number of a word of 64 bits that a residue with a sign is kept as; minus one is not used. -/
def signedWord (negative : Bool) (residue : Nat) : Nat :=
  if !negative then residue
  else if residue = 0 then 0
  else Nat.pow 2 64 - (if residue = 1 then 2 else residue)

/-- The residue of `m · 2^e`: two has the order 61. -/
def binaryResidue (m : Nat) (e : Int) : Nat := m * Nat.pow 2 (e % 61).toNat % modulus

/-- The word that decides where a number goes. -/
def word? : Atom → Option Nat
  | .bool b => some (if b then 1 else 0)
  | .int n => some (signedWord (n < 0) (n.natAbs % modulus))
  | .float (.finite negative m e) => some (signedWord negative (binaryResidue m e))
  | .float (.infinite negative) => some (signedWord negative 314159)
  | _ => none

/-- A table of slots, whose number is a power of two. -/
abbrev Slots := Array (Option (Nat × Atom))

/-- How many slots behind a slot are tried, unless the table ends before. -/
def neighbours : Nat := 9

/-- The first free slot among so many from a slot on. -/
def freeFrom? (slots : Slots) (i : Nat) : Nat → Option Nat
  | 0 => none
  | n + 1 =>
    match slots[i]? with
    | some none => some i
    | _ => freeFrom? slots (i + 1) n

/-- The slot for a word, walking on from a slot with what is left of the word; `fuel` bounds the walk. -/
def slotFrom (slots : Slots) (fuel i rest : Nat) : Nat :=
  match fuel with
  | 0 => i
  | fuel + 1 =>
    let tries := if i + neighbours < slots.size then neighbours + 1 else 1
    match freeFrom? slots i tries with
    | some place => place
    | none =>
      let rest := rest / 32
      slotFrom slots fuel ((5 * i + 1 + rest) % slots.size) rest

/-- Put a member into a table. -/
def put (slots : Slots) (member : Nat × Atom) : Slots :=
  let place := slotFrom slots (16 + slots.size) (member.1 % slots.size) member.1
  slots.setIfInBounds place (some member)

/-- The number of slots for more than so many members: a power of two, at least eight. -/
def sizeAbove (fuel least : Nat) (size : Nat) : Nat :=
  match fuel with
  | 0 => size
  | fuel + 1 => if size ≤ least then sizeAbove fuel least (2 * size) else size

/-- A table without members. -/
def emptySlots (least : Nat) : Slots := Array.replicate (sizeAbove least least 8) none

/-- Put members into a table that is made large enough for all of them at the start. -/
def fill (members : List (Nat × Atom)) : Slots :=
  let count := members.length
  let start := if 21 ≤ 5 * count then emptySlots (2 * count) else emptySlots 0
  members.foldl put start

/-- The members of a set in the order in which it shows them. -/
def arrange (items : List Atom) : List Atom :=
  match items.mapM fun a => (word? a).map fun w => (w, a) with
  | none => items
  | some members => (fill members).toList.filterMap fun slot => slot.map (·.2)

end ShaderFlatten.Yaml.SetOrder
