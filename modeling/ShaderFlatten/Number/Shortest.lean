import ShaderFlatten.Number.Binary64
import ShaderFlatten.Text.Basic

/-!
# The shortest decimal that reads back

A finite number is written with the fewest significant digits that read back as the same number; of
two such decimals the nearer one is taken, and a tie goes to the even digit.

For each count of digits the two neighbours of the number on the decimal grid are the only candidates:
if any point of the grid reads back, one of the neighbours does.  Seventeen digits always suffice.
-/

namespace ShaderFlatten.Binary64

/-- `n / d` divided by `10^k`, as a ratio. -/
def scaleDecimal (n d : Nat) (k : Int) : Nat × Nat :=
  match k with
  | .ofNat j => (n, d * Nat.pow 10 j)
  | .negSucc j => (n * Nat.pow 10 (j + 1), d)

/-- The decimal exponent of the leading digit of `n / d`. -/
def leadingExponent (n d : Nat) : Int :=
  let guess : Int := (digitCount n : Int) - (digitCount d : Int)
  let (n', d') := scaleDecimal n d guess
  if d' ≤ n' then guess else guess - 1

/-- A decimal: `digits · 10^exponent`. -/
structure Decimal where
  digits : Nat
  exponent : Int
  deriving DecidableEq, Repr

/-- The decimal with `count` digits that is nearest to `m · 2^e` among those that read back. -/
def candidate? (m : Nat) (e : Int) (count : Nat) : Option Decimal :=
  let (n, d) := ratio m e
  let unit := leadingExponent n d - (count : Int) + 1
  let (n', d') := scaleDecimal n d unit
  let low := n' / d'
  let readsBack (digits : Nat) : Bool := ofDecimal false digits unit = finite false m e
  let twiceAbove := 2 * (n' - low * d')
  let lowIsNearer := twiceAbove < d' || (twiceAbove = d' && low % 2 = 0)
  match readsBack low, readsBack (low + 1) with
  | true, true => some ⟨if lowIsNearer then low else low + 1, unit⟩
  | true, false => some ⟨low, unit⟩
  | false, true => some ⟨low + 1, unit⟩
  | false, false => none

/-- The exact decimal expansion of `m · 2^e`. -/
def expansion (m : Nat) (e : Int) : Decimal :=
  match e with
  | .ofNat k => ⟨m * Nat.pow 2 k, 0⟩
  | .negSucc k => ⟨m * Nat.pow 5 (k + 1), -((k : Int) + 1)⟩

/-- The shortest decimal that reads back as `m · 2^e`, which is not zero. -/
def shortest (m : Nat) (e : Int) : Decimal :=
  ((List.range' 1 17).findSome? (candidate? m e)).getD (expansion m e)

/-- Digits without the zeros at their end. -/
def significant (digits : Text) : Text := (digits.reverse.dropWhile (· == '0')).reverse

/-- An exponent with its sign and at least two digits. -/
def exponentText (e : Int) : Text :=
  let digits := Nat.toDigits 10 e.natAbs
  (if e < 0 then '-' else '+') :: (List.replicate (2 - digits.length) '0' ++ digits)

/-- Significant digits and the decimal exponent of the first one, laid out: positionally for exponents
from -4 to 15, always with a digit after the point, and with an exponent otherwise. -/
def layout (digits : Text) (lead : Int) : Text :=
  if -4 ≤ lead ∧ lead < 16 then
    match lead with
    | .negSucc k => '0' :: '.' :: (List.replicate k '0' ++ digits)
    | .ofNat k =>
      let whole := digits.take (k + 1)
      let fraction := digits.drop (k + 1)
      whole ++ List.replicate (k + 1 - whole.length) '0' ++
        '.' :: (if fraction.isEmpty then ['0'] else fraction)
  else
    match digits with
    | [] => []
    | first :: [] => first :: 'e' :: exponentText lead
    | first :: rest => first :: '.' :: rest ++ 'e' :: exponentText lead

/-- The magnitude of a finite number in decimal. -/
def magnitudeText (m : Nat) (e : Int) : Text :=
  if m = 0 then ['0', '.', '0']
  else
    let found := shortest m e
    let digits := Nat.toDigits 10 found.digits
    layout (significant digits) (found.exponent + digits.length - 1)

/-- A number in decimal: the shortest form that reads back. -/
def toText : Binary64 → Text
  | nan => ['n', 'a', 'n']
  | infinite false => ['i', 'n', 'f']
  | infinite true => ['-', 'i', 'n', 'f']
  | finite false m e => magnitudeText m e
  | finite true m e => '-' :: magnitudeText m e

end ShaderFlatten.Binary64
