import ShaderFlatten.Text.Basic

/-!
# Base 64

Bytes written as groups of four digits of six bits each.  Characters that are no digits are skipped.  The
last group may be filled with equals signs, and what follows a filled group is not looked at.

    Base64.decode? t    the bytes that `t` spells, if its last group is complete
-/

namespace ShaderFlatten.Base64

/-- The value of a digit. -/
def digit? (c : Char) : Option Nat :=
  if c.isUpper then some (c.toNat - 'A'.toNat)
  else if c.isLower then some (c.toNat - 'a'.toNat + 26)
  else if c.isDigit then some (c.toNat - '0'.toNat + 52)
  else if c = '+' then some 62
  else if c = '/' then some 63
  else none

/-- The decoder inside a group: the bytes so far, backwards, the number of digits of the group, the bits that
no byte has yet, and the number of equals signs behind the last digit. -/
structure State where
  done : List UInt8
  digits : Nat
  bits : Nat
  fill : Nat

/-- One digit more: from the second one on, every digit completes a byte. -/
def State.push (s : State) (d : Nat) : State :=
  match s.digits with
  | 0 => ⟨s.done, 1, d, 0⟩
  | 1 => ⟨UInt8.ofNat (4 * s.bits + d / 16) :: s.done, 2, d % 16, 0⟩
  | 2 => ⟨UInt8.ofNat (16 * s.bits + d / 4) :: s.done, 3, d % 4, 0⟩
  | _ => ⟨UInt8.ofNat (64 * s.bits + d) :: s.done, 0, 0, 0⟩

/-- Decode what is left of a text. -/
def decodeFrom (s : State) : Text → Option (List UInt8)
  | [] => if s.digits = 0 then some s.done.reverse else none
  | c :: rest =>
    if c = '=' then
      if s.digits < 2 then decodeFrom s rest
      else if 4 ≤ s.digits + s.fill + 1 then some s.done.reverse
      else decodeFrom { s with fill := s.fill + 1 } rest
    else
      match digit? c with
      | some d => decodeFrom (s.push d) rest
      | none => decodeFrom s rest

/-- The bytes that a text spells. -/
def decode? (t : Text) : Option (List UInt8) := decodeFrom ⟨[], 0, 0, 0⟩ t

end ShaderFlatten.Base64
