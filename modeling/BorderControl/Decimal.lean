import BorderControl.Text

/-!
# Decimal numbers

A `Decimal` is a sign and a whole magnitude below 2⁹⁶ over a power of ten, its scale,
which is at most 28. Sign and scale belong to the number: `1.5` and `1.50` are equal in
value (`Decimal.le` both ways) and two different decimals, and so are `0.0` and `-0.0`.
Each is written with its own sign and scale (`Decimal.text`).

Sums, differences and products are exact where the exact result is a decimal. A result
with too many digits loses as few of its last ones as it must, rounded with ties to
even (`Decimal.fit?`); one whose whole part is too large is no decimal at all.
-/

namespace BorderControl

/-- The `k`-th power of ten. -/
def tenTo (k : Nat) : Nat := Nat.pow 10 k

theorem tenTo_zero : tenTo 0 = 1 := rfl

theorem tenTo_succ (k : Nat) : tenTo (k + 1) = tenTo k * 10 := rfl

theorem tenTo_pos (k : Nat) : 0 < tenTo k := Nat.pow_pos (by decide)

/-- The quotient rounded to the nearest whole number, a tie to the even one. -/
def roundHalfEven (n d : Nat) : Nat :=
  let q := n / d
  let r := 2 * (n % d)
  if r < d then q else if d < r then q + 1 else q + q % 2

/-- The quotient rounded to the nearest whole number, a tie upwards. -/
def roundHalfUp (n d : Nat) : Nat := (n + d / 2) / d

/-- `n` over the `scale`-th power of ten, written with exactly `scale` places. -/
def positional (n scale : Nat) : List Char :=
  let digits := Nat.toDigits 10 n
  let padded := List.replicate (scale + 1 - digits.length) '0' ++ digits
  let whole := padded.length - scale
  if scale = 0 then padded else padded.take whole ++ '.' :: padded.drop whole

/-- The number `± magnitude` over the `scale`-th power of ten. A zero may be negative:
it is what is left of a negative number whose digits were all rounded away. -/
structure Decimal where
  negative : Bool
  magnitude : Nat
  scale : Nat
  fits : magnitude < 1 <<< 96
  scale_le : scale ≤ 28
deriving DecidableEq, Repr

namespace Decimal

/-- The decimal with this sign, magnitude and scale, if there is one. -/
def ofParts? (negative : Bool) (magnitude scale : Nat) : Option Decimal :=
  if fits : magnitude < 1 <<< 96 then
    if scale_le : scale ≤ 28 then some ⟨negative, magnitude, scale, fits, scale_le⟩ else none
  else none

/-- The decimal `n` over the `scale`-th power of ten, if there is one; zero without a
sign. -/
def ofCoefficient? (n : Int) (scale : Nat) : Option Decimal := ofParts? (n < 0) n.natAbs scale

def zero : Decimal := ⟨false, 0, 0, by decide, by decide⟩

def ten : Decimal := ⟨false, 10, 0, by decide, by decide⟩

def hundred : Decimal := ⟨false, 100, 0, by decide, by decide⟩

/-- The sign of a negative number, the whole part, and as many places as the scale. -/
def text (d : Decimal) : String :=
  let body := positional d.magnitude d.scale
  String.ofList (if d.negative then '-' :: body else body)

/-! ## Arithmetic -/

def isZero (d : Decimal) : Bool := d.magnitude == 0

def abs (d : Decimal) : Decimal := { d with negative := false }

/-- `n` or its negation. -/
def signed (negative : Bool) (n : Nat) : Int := if negative then -(n : Int) else n

/-- The whole number that the decimal has over its power of ten. -/
def coefficient (d : Decimal) : Int := signed d.negative d.magnitude

/-- The decimal nearest to `n` over the `scale`-th power of ten among those that keep
as many of its digits as a decimal can hold. If rounding up reaches 2⁹⁶, one more digit
is rounded away. -/
def fit? (n : Int) (scale : Nat) : Option Decimal := do
  let drop ← (List.range (scale + 1)).find? fun k =>
    n.natAbs / tenTo k < 1 <<< 96 && scale - k ≤ 28
  let kept := roundHalfEven n.natAbs (tenTo drop)
  if kept < 1 <<< 96 then
    ofParts? (n < 0) kept (scale - drop)
  else if drop < scale then
    ofParts? (n < 0) (roundHalfEven kept 10) (scale - drop - 1)
  else none

/-- The coefficient of `d` at a scale not below its own. -/
def coefficientAt (d : Decimal) (scale : Nat) : Int := d.coefficient * tenTo (scale - d.scale)

def add? (a b : Decimal) : Option Decimal :=
  let scale := max a.scale b.scale
  fit? (a.coefficientAt scale + b.coefficientAt scale) scale

def sub? (a b : Decimal) : Option Decimal :=
  let scale := max a.scale b.scale
  fit? (a.coefficientAt scale - b.coefficientAt scale) scale

def mul? (a b : Decimal) : Option Decimal :=
  fit? (a.coefficient * b.coefficient) (a.scale + b.scale)

/-- `a` is at most `b` in value. -/
def le (a b : Decimal) : Bool :=
  a.coefficient * tenTo b.scale ≤ b.coefficient * tenTo a.scale

end Decimal

end BorderControl
