import BorderControl.Text

/-!
# Timestamps

A `Timestamp` is a calendar date and a time of day to the nanosecond, as read on a clock
whose offset from UTC it keeps: the same moment at two offsets makes two timestamps.
Dates are those of the Gregorian calendar in the years 0 to 9999.

`Timestamp.ofText?` reads the Internet date and time format, in which any single ASCII
character may stand between date and time. Digits beyond the ninth of a second's
fraction have no say. A leap second, which can only be the last second of a month in
UTC, is read as the last nanosecond before it. `Timestamp.text` writes the same format
with a `T`, without trailing zeros in the fraction, and with a `Z` for UTC.
-/

namespace BorderControl

/-- Whether the year has a 29th of February. -/
def isLeapYear (year : Nat) : Bool :=
  year % 4 == 0 && (year % 100 != 0 || year % 400 == 0)

def daysInMonth (year month : Nat) : Nat :=
  if month = 2 then (if isLeapYear year then 29 else 28)
  else if month = 4 ∨ month = 6 ∨ month = 9 ∨ month = 11 then 30 else 31

/-- Minutes are the unit of `offset`, positive to the east. -/
structure Timestamp where
  year : Nat
  month : Nat
  day : Nat
  hour : Nat
  minute : Nat
  second : Nat
  nanosecond : Nat
  offset : Int
  year_le : year ≤ 9999
  month_valid : 1 ≤ month ∧ month ≤ 12
  day_valid : 1 ≤ day ∧ day ≤ daysInMonth year month
  hour_lt : hour < 24
  minute_lt : minute < 60
  second_lt : second < 60
  nanosecond_lt : nanosecond < 1000000000
  offset_lt : offset.natAbs < 24 * 60
deriving DecidableEq, Repr

namespace Timestamp

/-! ## Writing -/

/-- `n` with at least `width` digits. -/
def padded (width n : Nat) : List Char :=
  let digits := Nat.toDigits 10 n
  List.replicate (width - digits.length) '0' ++ digits

/-- The fraction of a second without trailing zeros, its point in front. -/
def fractionText (nanosecond : Nat) : List Char :=
  if nanosecond = 0 then []
  else '.' :: ((padded 9 nanosecond).reverse.dropWhile (· == '0')).reverse

def offsetText (offset : Int) : List Char :=
  if offset = 0 then ['Z']
  else
    (if offset < 0 then '-' else '+') ::
      padded 2 (offset.natAbs / 60) ++ ':' :: padded 2 (offset.natAbs % 60)

def text (t : Timestamp) : String :=
  String.ofList <|
    padded 4 t.year ++ '-' :: padded 2 t.month ++ '-' :: padded 2 t.day ++
    'T' :: padded 2 t.hour ++ ':' :: padded 2 t.minute ++ ':' :: padded 2 t.second ++
    fractionText t.nanosecond ++ offsetText t.offset

/-! ## Reading -/

/-- Reads exactly `n` digits. -/
def readDigits? (n : Nat) (s : List Char) : Option (Nat × List Char) :=
  (Text.takeDigits? n s).map fun (digits, rest) => (Text.numeral digits, rest)

/-- Reads the character `c`. -/
def readChar? (c : Char) : List Char → Option (List Char)
  | [] => none
  | d :: rest => if d = c then some rest else none

/-- Reads the fraction of a second, in nanoseconds. Without a point there is none; after
a point there must be a digit. -/
def readFraction? (s : List Char) : Option (Nat × List Char) :=
  match readChar? '.' s with
  | none => some (0, s)
  | some rest =>
    let digits := rest.takeWhile Char.isDigit
    if digits = [] then none
    else
      let nine := (digits ++ List.replicate 9 '0').take 9
      some (Text.numeral nine, rest.dropWhile Char.isDigit)

/-- Reads a `Z` of either case, or a sign, hours and minutes. -/
def readOffset? : List Char → Option (Int × List Char)
  | [] => none
  | c :: rest =>
    if c = 'Z' || c = 'z' then some (0, rest)
    else if c = '+' || c = '-' then do
      let (hours, rest) ← readDigits? 2 rest
      let rest ← readChar? ':' rest
      let (minutes, rest) ← readDigits? 2 rest
      if hours ≤ 23 && minutes ≤ 59 then
        let size : Int := (hours * 60 + minutes : Nat)
        some (if c = '-' then -size else size, rest)
      else none
    else none

/-- The timestamp with these parts, if they make a date and a time. -/
def ofParts? (year month day hour minute second nanosecond : Nat) (offset : Int) :
    Option Timestamp :=
  if h : year ≤ 9999 ∧ (1 ≤ month ∧ month ≤ 12) ∧ (1 ≤ day ∧ day ≤ daysInMonth year month) ∧
      hour < 24 ∧ minute < 60 ∧ second < 60 ∧ nanosecond < 1000000000 ∧ offset.natAbs < 24 * 60 then
    some ⟨year, month, day, hour, minute, second, nanosecond, offset, h.1, h.2.1, h.2.2.1,
      h.2.2.2.1, h.2.2.2.2.1, h.2.2.2.2.2.1, h.2.2.2.2.2.2.1, h.2.2.2.2.2.2.2⟩
  else none

/-- The minute of `t` is the last one of a month in UTC. There the clock shows 23:59; it
is a day behind or ahead where the offset carries the time over midnight. -/
def endsMonth (t : Timestamp) : Bool :=
  let minutes : Int := (t.hour * 60 + t.minute : Nat) - t.offset
  let last := daysInMonth t.year t.month
  if minutes = 24 * 60 - 1 then t.day == last
  else if minutes = -1 then t.day == 1
  else if minutes = 2 * 24 * 60 - 1 then t.day + 1 == last
  else false

def read? (s : List Char) : Option Timestamp := do
  let (year, s) ← readDigits? 4 s
  let s ← readChar? '-' s
  let (month, s) ← readDigits? 2 s
  let s ← readChar? '-' s
  let (day, s) ← readDigits? 2 s
  let s ← match s with
    | c :: rest => if c.toNat < 128 then some rest else none
    | [] => none
  let (hour, s) ← readDigits? 2 s
  let s ← readChar? ':' s
  let (minute, s) ← readDigits? 2 s
  let s ← readChar? ':' s
  let (second, s) ← readDigits? 2 s
  let (nanosecond, s) ← readFraction? s
  let (offset, s) ← readOffset? s
  if s ≠ [] then none
  else if second = 60 then
    (ofParts? year month day hour minute 59 999999999 offset).filter endsMonth
  else ofParts? year month day hour minute second nanosecond offset

def ofText? (s : String) : Option Timestamp := read? s.toList

end Timestamp

end BorderControl
