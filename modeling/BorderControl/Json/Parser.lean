import BorderControl.Json

/-!
# Reading JSON

Every reader takes the characters ahead and gives back what it read and what is left.
`value?` goes down by the number of brackets that may still be opened, and a list of
elements by the number of characters ahead, so reading always ends. A text may open at
most 127 brackets within each other (`maxDepth`).

A number without a point or an exponent is whole if it fits 64 bits, signed or not; all
others, and the negative zero, are doubles (`Literal.toJson?`).
-/

namespace BorderControl.Json

/-- How many brackets may be open at once. -/
def maxDepth : Nat := 127

abbrev Reader (α : Type) := List Char → Option (α × List Char)

/-- The four characters that may stand between the parts of a value. -/
def isSpace (c : Char) : Bool := c == ' ' || c == '\n' || c == '\r' || c == '\t'

def skipSpace (s : List Char) : List Char := s.dropWhile isSpace

/-! ## Strings -/

/-- The number that four hexadecimal digits stand for. -/
def unit? (a b c d : Char) : Option Nat := Text.hexNumeral? [a, b, c, d]

/-- What a backslash and one character stand for. -/
def unescape? (c : Char) : Option Char :=
  match c with
  | '"' => some '"'
  | '\\' => some '\\'
  | '/' => some '/'
  | 'b' => some (Char.ofNat 0x08)
  | 'f' => some (Char.ofNat 0x0C)
  | 'n' => some '\n'
  | 'r' => some '\r'
  | 't' => some '\t'
  | _ => none

/-- Reads the rest of a string whose opening quote is behind. An escaped unit in the
range of high surrogates must be followed by one in the range of low surrogates, and
the two make one character; no surrogate stands alone. -/
def stringBody? : Reader (List Char)
  | [] => none
  | c :: r =>
    if c = '"' then some ([], r)
    else if c = '\\' then
      match r with
      | 'u' :: d₁ :: d₂ :: d₃ :: d₄ :: r =>
        match unit? d₁ d₂ d₃ d₄ with
        | none => none
        | some u =>
          if 0xD800 ≤ u && u < 0xDC00 then
            match r with
            | '\\' :: 'u' :: e₁ :: e₂ :: e₃ :: e₄ :: r =>
              match unit? e₁ e₂ e₃ e₄ with
              | none => none
              | some v =>
                if 0xDC00 ≤ v && v < 0xE000 then
                  (stringBody? r).map fun (s, r) =>
                    (Char.ofNat (0x10000 + (u - 0xD800) * 0x400 + (v - 0xDC00)) :: s, r)
                else none
            | _ => none
          else if 0xDC00 ≤ u && u < 0xE000 then none
          else (stringBody? r).map fun (s, r) => (Char.ofNat u :: s, r)
      | e :: r =>
        match unescape? e with
        | none => none
        | some c => (stringBody? r).map fun (s, r) => (c :: s, r)
      | [] => none
    else if c.toNat < 0x20 then none
    else (stringBody? r).map fun (s, r) => (c :: s, r)

def string? : Reader String
  | '"' :: r => (stringBody? r).map fun (s, r) => (String.ofList s, r)
  | _ => none

/-! ## Numbers -/

/-- A number as written: its sign, the digits before and after the point, and the sign
and digits of its exponent. Digits are missing where there is no point or exponent. -/
structure Literal where
  negative : Bool
  whole : List Char
  places : Option (List Char)
  exponent : Option (Bool × List Char)

/-- Reads one digit or more. -/
def digits? : Reader (List Char) := fun s =>
  let ds := s.takeWhile Char.isDigit
  if ds = [] then none else some (ds, s.dropWhile Char.isDigit)

/-- Reads a whole part, which starts with a zero only if it is one. -/
def wholePart? : Reader (List Char) := fun s => do
  let (ds, r) ← digits? s
  if 1 < ds.length && ds.head? == some '0' then none else some (ds, r)

def places? : Reader (Option (List Char))
  | '.' :: r => (digits? r).map fun (ds, r) => (some ds, r)
  | s => some (none, s)

def exponent? : Reader (Option (Bool × List Char))
  | c :: r =>
    if c = 'e' || c = 'E' then
      match r with
      | '-' :: r => (digits? r).map fun (ds, r) => (some (true, ds), r)
      | '+' :: r => (digits? r).map fun (ds, r) => (some (false, ds), r)
      | r => (digits? r).map fun (ds, r) => (some (false, ds), r)
    else some (none, c :: r)
  | [] => some (none, [])

def literal? : Reader Literal := fun s => do
  let (negative, s) := match s with
    | '-' :: r => (true, r)
    | s => (false, s)
  let (whole, s) ← wholePart? s
  let (places, s) ← places? s
  let (exponent, s) ← exponent? s
  return (⟨negative, whole, places, exponent⟩, s)

/-- Appends digits to the number `n` as long as it stays below 2⁶⁴, and counts them. -/
def absorb : Nat → List Char → Nat × Nat
  | n, [] => (n, 0)
  | n, c :: rest =>
    let n' := 10 * n + (c.toNat - '0'.toNat)
    if n' < UInt64.size then
      let (m, k) := absorb n' rest
      (m, k + 1)
    else (n, 0)

namespace Literal

/-- The double that a literal stands for. Its significand keeps the leading digits that
fit 64 bits; whole digits without room count for the power of ten, and digits after the
point without room are dropped. -/
def toBinary64? (l : Literal) : Option Binary64 :=
  let (n, kept) := absorb 0 l.whole
  let (n, kept') := absorb n (l.places.getD [])
  let power : Int := (l.whole.length - kept : Nat) - (kept' : Int)
  match l.exponent with
  | none => Binary64.scaled? l.negative n power
  | some (minus, ds) =>
    let e := Text.numeral ds
    if e < 1 <<< 31 then Binary64.scaled? l.negative n (if minus then power - e else power + e)
    else if n = 0 || minus then some ⟨l.negative, 0, -1074⟩
    else none

def toJson? (l : Literal) : Option Json :=
  let n := Text.numeral l.whole
  let whole := l.places.isNone && l.exponent.isNone
  if whole && !l.negative && n < UInt64.size then some (.int n)
  else if whole && l.negative && 0 < n && n ≤ 1 <<< 63 then some (.int (-n))
  else l.toBinary64?.map .real

end Literal

def number? : Reader Json := fun s => do
  let (l, r) ← literal? s
  return (← l.toJson?, r)

/-! ## Values -/

/-- Reads one item or more, set apart by commas, and the bracket `close`. -/
def items? {α : Type} (item : Reader α) (close : Char) : Nat → Reader (List α)
  | 0, _ => none
  | n + 1, s =>
    match item s with
    | none => none
    | some (x, r) =>
      match skipSpace r with
      | [] => none
      | c :: r =>
        if c = ',' then (items? item close n r).map fun (xs, r) => (x :: xs, r)
        else if c = close then some ([x], r)
        else none

/-- Reads any number of items and the bracket `close`. -/
def list? {α : Type} (item : Reader α) (close : Char) : Reader (List α) := fun s =>
  match skipSpace s with
  | [] => none
  | c :: r => if c = close then some ([], r) else items? item close s.length (c :: r)

/-- Reads a name, a colon and a value. -/
def memberOf? (value : Reader Json) : Reader (String × Json) := fun s =>
  match string? (skipSpace s) with
  | none => none
  | some (name, r) =>
    match skipSpace r with
    | ':' :: r => (value r).map fun (j, r) => ((name, j), r)
    | _ => none

/-- Reads the word `word` and gives `j` for it. -/
def word? (word : List Char) (j : Json) : Reader Json := fun s =>
  (Text.after? word s).map fun r => (j, r)

/-- Reads a value in which at most `depth` brackets are open at once. -/
def value? (depth : Nat) : Reader Json := fun s =>
  match skipSpace s with
  | [] => none
  | c :: r =>
    match c with
    | 'n' => word? ['u', 'l', 'l'] .null r
    | 't' => word? ['r', 'u', 'e'] (.bool true) r
    | 'f' => word? ['a', 'l', 's', 'e'] (.bool false) r
    | '"' => (string? (c :: r)).map fun (s, r) => (.str s, r)
    | '[' =>
      match depth with
      | 0 => none
      | depth + 1 => (list? (value? depth) ']' r).map fun (xs, r) => (.arr xs, r)
    | '{' =>
      match depth with
      | 0 => none
      | depth + 1 => (list? (memberOf? (value? depth)) '}' r).map fun (ms, r) => (.obj ms, r)
    | _ => number? (c :: r)

/-- Reads a text that holds one value and nothing else. -/
def parseChars? (s : List Char) : Option Json :=
  match value? maxDepth s with
  | some (j, r) => if skipSpace r = [] then some j else none
  | none => none

def parse? (s : String) : Option Json := parseChars? s.toList

end BorderControl.Json
