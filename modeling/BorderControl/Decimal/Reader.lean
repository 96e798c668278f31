import BorderControl.Decimal

/-!
# Reading decimals

A decimal is written as an optional sign and digits with at most one point among them;
underscores may stand anywhere after the first digit (`readPlain?`). More digits than a
decimal can hold are allowed after the point only, where the first of them rounds the
number, a five upwards, and the others have no say (`Scan.rounded?`). A zero so written
has no sign. An underscore before the rounding digit is passed over in a long number and
counts as a rounding zero in a short one (`Scan.short`).

A text that is not of this kind may still carry an exponent, which moves the point by at
most 28 places (`readScientific?`).
-/

namespace BorderControl.Decimal

/-- What has been read of a number: its digits as one whole number, how many of them
stood after the point, and whether a point and a digit have been met. -/
structure Scan where
  digits : Nat
  places : Nat
  pointed : Bool
  started : Bool

namespace Scan

/-- The number read so far; a text without any digit is none. -/
def result? (negative : Bool) (s : Scan) : Option Decimal :=
  if s.started then ofCoefficient? (signed negative s.digits) s.places else none

/-- The number rounded by the digit `d` that found no room. If rounding up reaches 2⁹⁶,
one place is given up. -/
def rounded? (negative : Bool) (s : Scan) (d : Nat) : Option Decimal :=
  let n := if 5 ≤ d then s.digits + 1 else s.digits
  if n < 1 <<< 96 then { s with digits := n }.result? negative
  else if s.places = 0 then none
  else { s with digits := roundHalfUp n 10, places := s.places - 1 }.result? negative

/-- The digits before the last are below the bound up to which one more digit is sure to
leave a number of 64 bits. -/
def short (s : Scan) : Bool := s.digits / 10 < UInt64.size / 10 - 255

/-- Ends the number with the rounding digit `d`. Nothing but digits and underscores may
follow it. -/
def finish? (negative : Bool) (s : Scan) (d : Nat) (rest : List Char) : Option Decimal :=
  if rest.all (fun c => c.isDigit || c == '_') then s.rounded? negative d else none

/-- Reads on from `s`. -/
def read? (negative : Bool) : Scan → List Char → Option Decimal
  | s, [] => s.result? negative
  | s, c :: rest =>
    if c.isDigit then
      let d := c.toNat - '0'.toNat
      let n := 10 * s.digits + d
      if s.places < 28 && n < 1 <<< 96 then
        read? negative
          { s with digits := n, places := if s.pointed then s.places + 1 else 0, started := true }
          rest
      else if s.pointed then s.finish? negative d rest
      else none
    else if c = '.' && !s.pointed then read? negative { s with pointed := true } rest
    else if c = '_' && s.started then
      if s.places = 28 && s.short then s.finish? negative 0 rest else read? negative s rest
    else none

end Scan

/-- Reads a sign and digits with at most one point. -/
def readPlain? (s : List Char) : Option Decimal :=
  let start : Scan := ⟨0, 0, false, false⟩
  match s with
  | '-' :: rest => start.read? true rest
  | '+' :: rest => start.read? false rest
  | s => start.read? false s

/-- Reads the digits of an exponent, a plus in front or not. -/
def readExponent? (s : List Char) : Option Nat :=
  let digits := match s with
    | '+' :: rest => rest
    | s => s
  if digits ≠ [] && digits.all Char.isDigit then
    let n := Text.numeral digits
    if n < UInt32.size then some n else none
  else none

/-- `d` with its point moved by a power of ten. To the left the scale grows, and digits
beyond the last place a decimal has are rounded away, a five upwards. To the right the
scale shrinks, and once it is used up the number is a whole one. -/
def shift? (d : Decimal) (leftward : Bool) (e : Nat) : Option Decimal :=
  if 28 < e then none
  else if leftward then
    let excess := d.scale + e - 28
    ofParts? d.negative (roundHalfUp d.magnitude (tenTo excess)) (d.scale + e - excess)
  else if e ≤ d.scale then ofParts? d.negative d.magnitude (d.scale - e)
  else ofParts? d.negative (d.magnitude * tenTo (e - d.scale)) 0

/-- Reads a plain number, an `e` of either case and an exponent. -/
def readScientific? (s : List Char) : Option Decimal :=
  let mark := fun c : Char => c == 'e' || c == 'E'
  match s.dropWhile (!mark ·) with
  | [] => none
  | _ :: exponent => do
    let d ← readPlain? (s.takeWhile (!mark ·))
    match exponent with
    | '-' :: rest => d.shift? true (← readExponent? rest)
    | _ => d.shift? false (← readExponent? exponent)

def ofText? (s : String) : Option Decimal :=
  (readPlain? s.toList).or (readScientific? s.toList)

/-- Whole numbers of up to 64 bits are decimals of scale 0. -/
def ofInt? (n : Int) : Option Decimal := ofCoefficient? n 0

end BorderControl.Decimal
