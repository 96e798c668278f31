import BorderControl.Decimal.Reader

/-!
# Double-precision numbers

A `Binary64` is a sign and a significand times a power of two. `ofRatio?` is the double
nearest to a fraction, ties to the even significand, and nothing if the fraction is too
large. Numbers in data files reach the library as a significand with a power of ten
(`scaled?`) or as a decimal fraction (`ofRatio?`).

`shortest` finds the fewest digits that read back as the same double, and among those
the ones nearest to it. `positionalText` writes them without an exponent, which is how a
double becomes a `Decimal` (`Decimal.ofBinary64?`).
-/

namespace BorderControl

/-- The number `± significand · 2 ^ exponent`. -/
structure Binary64 where
  negative : Bool
  significand : Nat
  exponent : Int
deriving DecidableEq, Repr

namespace Binary64

/-- Fraction `n / d` times `2 ^ e`, as a fraction. -/
def scaleBy (n d : Nat) (e : Int) : Nat × Nat :=
  if 0 ≤ e then (n <<< e.toNat, d) else (n, d <<< (-e).toNat)

/-- The value of the number without its sign, as a fraction. -/
def magnitude (x : Binary64) : Nat × Nat := scaleBy x.significand 1 x.exponent

def isZero (x : Binary64) : Bool := x.significand == 0

/-- The exponent of the doubles around `n / d`: their significand has 53 bits unless the
fraction is below the normal range. -/
def exponentOf (n d : Nat) : Int :=
  let e : Int := (n.log2 : Int) - d.log2 - 52
  let (n', d') := scaleBy n d (-e)
  max (-1074) (if n' < d' <<< 52 then e - 1 else e)

/-- The double nearest to `± n / d`, a tie to the even significand. -/
def ofRatio? (negative : Bool) (n d : Nat) : Option Binary64 :=
  if n = 0 then some ⟨negative, 0, -1074⟩
  else
    let e := exponentOf n d
    let (n', d') := scaleBy n d (-e)
    let q := roundHalfEven n' d'
    let (q, e) := if q = 1 <<< 53 then (1 <<< 52, e + 1) else (q, e)
    if e ≤ 971 then some ⟨negative, q, e⟩ else none

/-! ## Scaling by powers of ten -/

def powerOfTen? (k : Nat) : Option Binary64 := ofRatio? false (tenTo k) 1

/-- `x` times the double nearest to `10 ^ k`, rounded. -/
def timesPowerOfTen? (x : Binary64) (k : Nat) : Option Binary64 := do
  let p ← powerOfTen? k
  let (n, d) := x.magnitude
  let (n', d') := p.magnitude
  ofRatio? x.negative (n * n') (d * d')

/-- `x` over the double nearest to `10 ^ k`, rounded. -/
def overPowerOfTen? (x : Binary64) (k : Nat) : Option Binary64 := do
  let p ← powerOfTen? k
  let (n, d) := x.magnitude
  let (n', d') := p.magnitude
  ofRatio? x.negative (n * d') (d * n')

/-- `x` over `10 ^ k`, the largest power that is a double at a time. -/
def lower? : Nat → Binary64 → Nat → Option Binary64
  | 0, x, _ => some { x with significand := 0, exponent := -1074 }
  | steps + 1, x, k =>
    if k ≤ 308 then x.overPowerOfTen? k
    else do lower? steps (← x.overPowerOfTen? 308) (k - 308)

/-- A whole number of at most 64 bits times a power of ten: the number and the power are
each rounded to a double, then their product or quotient is. Division by `10 ^ 308`
leaves nothing of such a number the second time, so three steps downward suffice. -/
def scaled? (negative : Bool) (n : Nat) (e : Int) : Option Binary64 := do
  let x ← ofRatio? negative n 1
  if x.isZero then some x
  else if e < 0 then lower? 3 x (-e).toNat
  else if e ≤ 308 then x.timesPowerOfTen? e.toNat
  else none

/-! ## Shortest digits -/

/-- The power of ten just above `n / d`: the fraction is below `10 ^ k` and not below
`10 ^ (k - 1)`. -/
def decimalExponent (n d : Nat) : Int :=
  if d ≤ n then (Nat.toDigits 10 (n / d)).length
  else -(((List.range 400).find? fun z => d ≤ n * tenTo (z + 1)).getD 0 : Nat)

/-- Digits `c` and a power of ten `p`, which stand for `c · 10 ^ p`. -/
structure Digits where
  coefficient : Nat
  power : Int
deriving DecidableEq, Repr

/-- Which of two neighbours is taken if they are equally near: the upper one, or the one
whose last digit is even. -/
inductive Tie where
  | up
  | toEven
deriving DecidableEq, Repr

/-- The digits of least count that stand for a number nearer to `x` than to any other
double (or midway, if the significand of `x` is even), and of those the nearest to `x`.
For each count only the two neighbours of `x` with that many digits need a look. -/
def shortest (tie : Tie) (x : Binary64) : Digits :=
  if x.isZero then ⟨0, 0⟩
  else
    let unit := x.exponent - 2
    let value := 4 * x.significand
    let below := if x.significand = 1 <<< 52 && -1074 < x.exponent then value - 1 else value - 2
    let above := value + 2
    let even := x.significand % 2 == 0
    let (n, d) := scaleBy value 1 unit
    let top := decimalExponent n d
    let hit : Nat → Option Digits := fun count =>
      let power := top - count
      -- one unit of the last digit, in quarters of the last bit
      let (un, ud) := if 0 ≤ power then scaleBy (tenTo power.toNat) 1 (-unit)
        else scaleBy 1 (tenTo (-power).toNat) (-unit)
      let floor := value * ud / un
      let inside := fun c =>
        if even then below * ud ≤ c * un && c * un ≤ above * ud
        else below * ud < c * un && c * un < above * ud
      let double := 2 * (value * ud)
      let middle := (2 * floor + 1) * un
      let lower := double < middle || (double == middle && tie == .toEven && floor % 2 == 0)
      let digits : Nat → Digits := fun c => if c = tenTo count then ⟨1, top⟩ else ⟨c, power⟩
      match inside floor, inside (floor + 1) with
      | true, true => some (digits (if lower then floor else floor + 1))
      | true, false => some (digits floor)
      | false, true => some (digits (floor + 1))
      | false, false => none
    (((List.range 17).map (· + 1)).findSome? hit).getD ⟨0, 0⟩

/-- The shortest digits of `x` in positional notation, a tie upwards. -/
def positionalText (x : Binary64) : List Char :=
  let ⟨c, p⟩ := x.shortest .up
  let body := if 0 ≤ p then positional (c * tenTo p.toNat) 0 else positional c (-p).toNat
  if x.negative then '-' :: body else body

end Binary64

/-- The decimal that the shortest digits of a double spell. -/
def Decimal.ofBinary64? (x : Binary64) : Option Decimal := Decimal.readPlain? x.positionalText

end BorderControl
