/-!
# Binary floating point, exactly

A number in the 64-bit binary format is kept as sign, mantissa and exponent, and every operation is a
computation on integers followed by one rounding:

    Binary64.ofRatio s n d     the number nearest to `n / d`, a tie going to the even mantissa
    Binary64.ofDecimal s n e   the number nearest to `n · 10^e`
-/

namespace ShaderFlatten

/-- A number in the 64-bit binary format; `finite s m e` is `m · 2^e`, negated if `s`. -/
inductive Binary64 where
  | nan
  | infinite (negative : Bool)
  | finite (negative : Bool) (mantissa : Nat) (exponent : Int)
  deriving DecidableEq, Repr

namespace Binary64

/-- The exponent of the numbers closest to zero. -/
def minExponent : Int := -1074

/-- The greatest exponent of a finite number. -/
def maxExponent : Int := 971

/-- `n / d` to the nearest integer, a tie going to the even one. -/
def divNearest (n d : Nat) : Nat :=
  let q := n / d
  let r := n % d
  if d < 2 * r || (2 * r = d && q % 2 = 1) then q + 1 else q

/-- `(n / d) / 2^e` as a ratio. -/
def scaleBinary (n d : Nat) (e : Int) : Nat × Nat :=
  match e with
  | .ofNat k => (n, d * Nat.pow 2 k)
  | .negSucc k => (n * Nat.pow 2 (k + 1), d)

/-- The exponent at which the mantissa of `n / d` has 53 binary digits, or the least one. -/
def exponentOf (n d : Nat) : Int :=
  let guess : Int := (n.log2 : Int) - (d.log2 : Int)
  let (n', d') := scaleBinary n d guess
  max minExponent (if d' ≤ n' then guess - 52 else guess - 53)

/-- The finite number `m · 2^e` for a mantissa of at most `2^53`, or infinity if it is too large. -/
def pack (negative : Bool) (m : Nat) (e : Int) : Binary64 :=
  let (m, e) := if m = Nat.pow 2 53 then (Nat.pow 2 52, e + 1) else (m, e)
  if maxExponent < e then infinite negative else finite negative m e

/-- The zero of a sign. -/
def zero (negative : Bool) : Binary64 := finite negative 0 minExponent

/-- The number nearest to `n / d`. -/
def ofRatio (negative : Bool) (n d : Nat) : Binary64 :=
  if n = 0 then zero negative
  else
    let e := exponentOf n d
    let (n', d') := scaleBinary n d e
    pack negative (divNearest n' d') e

/-- The number of decimal digits. -/
def digitCount (n : Nat) : Nat := (Nat.toDigits 10 n).length

/-- The number nearest to `n · 10^e`.  Beyond the range of the format it is infinite or zero, which
the position of the first digit decides. -/
def ofDecimal (negative : Bool) (n : Nat) (e : Int) : Binary64 :=
  if n = 0 then zero negative
  else
    let magnitude := (digitCount n : Int) + e
    if 310 < magnitude then infinite negative
    else if magnitude < -330 then zero negative
    else
      match e with
      | .ofNat k => ofRatio negative (n * Nat.pow 10 k) 1
      | .negSucc k => ofRatio negative n (Nat.pow 10 (k + 1))

/-- The magnitude of `m · 2^e` as a ratio. -/
def ratio (m : Nat) (e : Int) : Nat × Nat :=
  match e with
  | .ofNat k => (m * Nat.pow 2 k, 1)
  | .negSucc k => (m, Nat.pow 2 (k + 1))

/-- The same number with the sign reversed. -/
def neg : Binary64 → Binary64
  | nan => nan
  | infinite s => infinite !s
  | finite s m e => finite (!s) m e

/-- Neither zero: what counts as true. -/
def isNonzero : Binary64 → Bool
  | finite _ m _ => m != 0
  | _ => true

/-- The exact integer that a finite number equals, if it does. -/
def toInt? : Binary64 → Option Int
  | finite s m e =>
    let (n, d) := ratio m e
    if n % d = 0 then some (if s then -((n / d : Nat) : Int) else ((n / d : Nat) : Int)) else none
  | _ => none

/-- Numerically equal: the two zeros are, and a NaN is the NaN. -/
def sameNumber : Binary64 → Binary64 → Bool
  | finite _ 0 _, finite _ 0 _ => true
  | x, y => x = y

/-- The sum of two finite numbers of either sign, rounded once; with anything else, the usual rules. -/
def add : Binary64 → Binary64 → Binary64
  | finite s m e, finite s' m' e' =>
    let low := min e e'
    let a : Int := (m * Nat.pow 2 (e - low).toNat : Nat)
    let b : Int := (m' * Nat.pow 2 (e' - low).toNat : Nat)
    let total := (if s then -a else a) + (if s' then -b else b)
    let negative := if total = 0 then s && s' else total < 0
    let (n, d) := ratio total.natAbs low
    ofRatio negative n d
  | infinite s, infinite s' => if s = s' then infinite s else nan
  | infinite s, finite .. => infinite s
  | finite .., infinite s => infinite s
  | _, _ => nan

/-- A number times a natural number, which is itself rounded first. -/
def scale (x : Binary64) (k : Nat) : Binary64 :=
  match x, ofRatio false k 1 with
  | finite s m e, finite _ m' e' =>
    let (n, d) := ratio (m * m') (e + e')
    ofRatio s n d
  | finite s m _, infinite _ => if m = 0 then nan else infinite s
  | infinite s, finite _ m _ => if m = 0 then nan else infinite s
  | infinite s, infinite _ => infinite s
  | _, _ => nan

end Binary64

end ShaderFlatten
