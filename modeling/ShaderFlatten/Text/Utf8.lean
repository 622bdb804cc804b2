import ShaderFlatten.Text.Basic

/-!
# Reading UTF-8

A sequence starts with a lead byte, which fixes the ranges of the bytes that continue it.  Reading
stops at the first sequence that is not well formed and says which bytes are at fault:

    lead byte                          continued by
    00–7F                              nothing
    C2–DF                              80–BF
    E0 / E1–EC, EE, EF / ED            A0–BF / 80–BF / 80–9F, then 80–BF
    F0 / F1–F3 / F4                    90–BF / 80–BF / 80–8F, then 80–BF twice

`Utf8.decode` accepts exactly the well formed sequences; surrogates and overlong forms are none.
-/

namespace ShaderFlatten.Utf8

/-- Why a byte sequence is refused. -/
inductive Reason where
  /-- the lead byte starts no sequence -/
  | badStart
  /-- a byte follows that cannot continue the sequence -/
  | badContinuation
  /-- the input ends inside the sequence -/
  | truncated
  deriving DecidableEq, Repr

/-- A refused sequence: its first byte, its place and how many of its bytes are at fault. -/
structure Refusal where
  first : UInt8
  start : Nat
  count : Nat
  reason : Reason
  deriving DecidableEq, Repr

/-- The wording of a reason. -/
def Reason.message : Reason → String
  | .badStart => "invalid start byte"
  | .badContinuation => "invalid continuation byte"
  | .truncated => "unexpected end of data"

/-- The wording of a refusal. -/
def Refusal.message (r : Refusal) : String :=
  let place :=
    if r.count = 1 then
      "byte 0x" ++ hexadecimal 2 r.first.toNat ++ " in position " ++ decimal r.start
    else
      "bytes in position " ++ decimal r.start ++ "-" ++ decimal (r.start + r.count - 1 : Nat)
  "'utf-8' codec can't decode " ++ place ++ ": " ++ r.reason.message

/-- A range of byte values, both ends included. -/
abbrev ByteRange := UInt8 × UInt8

/-- A continuation byte without a further restriction. -/
def anyContinuation : ByteRange := (0x80, 0xBF)

/-- The bits that a lead byte carries and the ranges of the bytes that must follow it. -/
def lead? (b : UInt8) : Option (Nat × List ByteRange) :=
  if b < 0x80 then some (b.toNat, [])
  else if b < 0xC2 then none
  else if b < 0xE0 then some (b.toNat - 0xC0, [anyContinuation])
  else if b = 0xE0 then some (0, [(0xA0, 0xBF), anyContinuation])
  else if b = 0xED then some (0xD, [(0x80, 0x9F), anyContinuation])
  else if b < 0xF0 then some (b.toNat - 0xE0, [anyContinuation, anyContinuation])
  else if b = 0xF0 then some (0, [(0x90, 0xBF), anyContinuation, anyContinuation])
  else if b < 0xF4 then some (b.toNat - 0xF0, [anyContinuation, anyContinuation, anyContinuation])
  else if b = 0xF4 then some (4, [(0x80, 0x8F), anyContinuation, anyContinuation])
  else none

/-- Take the continuation bytes: the code point and the rest, or the number of bytes that were right
and the reason to stop. -/
def continue? : List ByteRange → List UInt8 → (code taken : Nat) →
    Except (Nat × Reason) (Nat × List UInt8)
  | [], rest, code, _ => .ok (code, rest)
  | _ :: _, [], _, taken => .error (taken, .truncated)
  | (low, high) :: ranges, b :: rest, code, taken =>
    if low ≤ b && b ≤ high then continue? ranges rest (code * 64 + (b.toNat - 0x80)) (taken + 1)
    else .error (taken, .badContinuation)

/-- One character from the front of a byte list, with the rest; `start` is the place of the list. -/
def next? (start : Nat) (first : UInt8) (rest : List UInt8) : Except Refusal (Char × List UInt8) :=
  match lead? first with
  | none => .error ⟨first, start, 1, .badStart⟩
  | some (bits, ranges) =>
    match continue? ranges rest bits 1 with
    | .ok (code, rest) => .ok (Char.ofNat code, rest)
    | .error (count, reason) => .error ⟨first, start, count, reason⟩

theorem continue?_length_le {ranges : List ByteRange} {bytes : List UInt8} {code taken code' : Nat}
    {rest : List UInt8} (h : continue? ranges bytes code taken = .ok (code', rest)) :
    rest.length ≤ bytes.length := by
  induction ranges generalizing bytes code taken with
  | nil => simp only [continue?, Except.ok.injEq, Prod.mk.injEq] at h; simp [h.2]
  | cons r ranges ih =>
    cases bytes with
    | nil => simp [continue?] at h
    | cons b bytes =>
      simp only [continue?] at h
      split at h
      · exact Nat.le_trans (ih h) (Nat.le_succ _)
      · simp at h

theorem next?_length_le {start : Nat} {first : UInt8} {bytes rest : List UInt8} {c : Char}
    (h : next? start first bytes = .ok (c, rest)) : rest.length ≤ bytes.length := by
  unfold next? at h
  split at h
  · simp at h
  · split at h
    · rename_i heq
      simp only [Except.ok.injEq, Prod.mk.injEq] at h
      exact h.2 ▸ continue?_length_le heq
    · simp at h

/-- Read all of a byte list, whose place is `start`; `done` holds the characters before, backwards. -/
def decodeFrom (start : Nat) (done : Text) (bytes : List UInt8) : Except Refusal Text :=
  match bytes with
  | [] => .ok done.reverse
  | b :: rest =>
    match _ : next? start b rest with
    | .error refusal => .error refusal
    | .ok (c, rest') => decodeFrom (start + c.utf8Size) (c :: done) rest'
termination_by bytes.length
decreasing_by
  have := next?_length_le ‹_›
  simp only [List.length_cons]
  omega

/-- The text that a byte list spells, or the first sequence that is not well formed. -/
def decode (bytes : List UInt8) : Except Refusal Text := decodeFrom 0 [] bytes

/-- A byte list without one byte order mark in front. -/
def dropMark : List UInt8 → List UInt8
  | 0xEF :: 0xBB :: 0xBF :: rest => rest
  | bytes => bytes

end ShaderFlatten.Utf8
