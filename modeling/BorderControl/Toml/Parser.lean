import BorderControl.Timestamp
import BorderControl.Toml

/-!
# Reading TOML

Every reader takes the characters ahead and gives back what it read and what is left.
A document is read line by line into a `Draft`: the tables so far and the header that
the lines belong to. Arrays and inline tables go down by the number of brackets that may
still be opened (`maxDepth`), and repeated parts by the number of characters ahead.
-/

namespace BorderControl.Toml

abbrev Reader (α : Type) := List Char → Option (α × List Char)

/-- How many brackets may be open at once, and how many parts a key may have. -/
def maxDepth : Nat := 79

/-! ## Lines -/

def isSpace (c : Char) : Bool := c == ' ' || c == '\t'

def skipSpace (s : List Char) : List Char := s.dropWhile isSpace

/-- A character that may stand in a comment or in a literal string: no control character
but the tab. -/
def isPrintable (c : Char) : Bool := c == '\t' || (0x20 ≤ c.toNat && c.toNat ≠ 0x7F)

/-- What follows the end of a line. -/
def afterNewline? : List Char → Option (List Char)
  | '\n' :: rest => some rest
  | '\r' :: '\n' :: rest => some rest
  | _ => none

def skipComment : List Char → List Char
  | '#' :: rest => rest.dropWhile isPrintable
  | s => s

/-- What follows the rest of a line, on which only a comment may stand. -/
def afterLine? (s : List Char) : Option (List Char) :=
  match skipComment (skipSpace s) with
  | [] => some []
  | rest => afterNewline? rest

/-- Skips spaces, comments and ends of lines. -/
def skipLines : Nat → List Char → List Char
  | 0, s => s
  | n + 1, s =>
    let rest := skipSpace s
    match afterNewline? (skipComment rest) with
    | some rest => skipLines n rest
    | none => rest

def skipBlank (s : List Char) : List Char := skipLines s.length s

/-! ## Strings -/

/-- Reads a character given by `count` hexadecimal digits. -/
def codePoint? (count : Nat) : Reader Char := fun s => do
  let digits := s.take count
  let n ← Text.hexNumeral? digits
  if digits.length = count && (n < 0xD800 || (0xE000 ≤ n && n ≤ 0x10FFFF)) then
    some (Char.ofNat n, s.drop count)
  else none

/-- Reads what follows a backslash. -/
def escape? : Reader Char
  | 'b' :: r => some (Char.ofNat 0x08, r)
  | 't' :: r => some ('\t', r)
  | 'n' :: r => some ('\n', r)
  | 'f' :: r => some (Char.ofNat 0x0C, r)
  | 'r' :: r => some ('\r', r)
  | '"' :: r => some ('"', r)
  | '\\' :: r => some ('\\', r)
  | 'u' :: r => codePoint? 4 r
  | 'U' :: r => codePoint? 8 r
  | _ => none

/-- Reads the rest of a string on one line that ends at `quote`. Only between double
quotes does a backslash escape. -/
def lineString? (quote : Char) : Nat → Reader (List Char)
  | 0, _ => none
  | n + 1, s =>
    match s with
    | [] => none
    | c :: r =>
      if c = quote then some ([], r)
      else if c = '\\' && quote = '"' then do
        let (c, r) ← escape? r
        let (cs, r) ← lineString? quote n r
        return (c :: cs, r)
      else if isPrintable c then (lineString? quote n r).map fun (cs, r) => (c :: cs, r)
      else none

/-- Skips spaces and ends of lines. -/
def skipEmptyLines : List Char → List Char
  | '\n' :: rest => skipEmptyLines rest
  | '\r' :: '\n' :: rest => skipEmptyLines rest
  | c :: rest => if isSpace c then skipEmptyLines rest else c :: rest
  | [] => []

/-- Skips the end of a line after a backslash, and all blank lines and spaces after it. -/
def joinLines? (s : List Char) : Option (List Char) :=
  (afterNewline? (skipSpace s)).map skipEmptyLines

/-- Reads the rest of a string over several lines that ends at three times `quote`. Up to
two more of them may stand before the end. -/
def blockString? (quote : Char) : Nat → Reader (List Char)
  | 0, _ => none
  | n + 1, s =>
    match s with
    | [] => none
    | c :: r =>
      if c = quote then
        let count := (s.takeWhile (· == quote)).length
        if 3 ≤ count then
          let inside := min count 5 - 3
          some (List.replicate inside quote, s.drop (inside + 3))
        else (blockString? quote n r).map fun (cs, r) => (c :: cs, r)
      else if c = '\\' && quote = '"' then
        match joinLines? r with
        | some r => blockString? quote n r
        | none => do
          let (c, r) ← escape? r
          let (cs, r) ← blockString? quote n r
          return (c :: cs, r)
      else
        match afterNewline? s with
        | some r => (blockString? quote n r).map fun (cs, r) => ('\n' :: cs, r)
        | none =>
          if isPrintable c then (blockString? quote n r).map fun (cs, r) => (c :: cs, r)
          else none

/-- Reads a string of any kind. The end of a line just after three quotes is no part of
the string. -/
def string? : Reader String := fun s =>
  let chars := match s with
    | '"' :: '"' :: '"' :: r => blockString? '"' s.length ((afterNewline? r).getD r)
    | '\'' :: '\'' :: '\'' :: r => blockString? '\'' s.length ((afterNewline? r).getD r)
    | '"' :: r => lineString? '"' s.length r
    | '\'' :: r => lineString? '\'' s.length r
    | _ => none
  chars.map fun (cs, r) => (String.ofList cs, r)

/-! ## Keys -/

def isBareKeyChar (c : Char) : Bool := c.isAlphanum || c == '_' || c == '-'

/-- Reads one part of a key: bare, or a string on one line. -/
def keyPart? : Reader String := fun s =>
  match s with
  | '"' :: r => (lineString? '"' s.length r).map fun (cs, r) => (String.ofList cs, r)
  | '\'' :: r => (lineString? '\'' s.length r).map fun (cs, r) => (String.ofList cs, r)
  | _ =>
    let cs := s.takeWhile isBareKeyChar
    if cs = [] then none else some (String.ofList cs, s.dropWhile isBareKeyChar)

/-- Reads the parts of a key, set apart by dots. -/
def keyParts? : Nat → Reader (List String)
  | 0, _ => none
  | n + 1, s => do
    let (part, r) ← keyPart? (skipSpace s)
    match skipSpace r with
    | '.' :: r => (keyParts? n r).map fun (parts, r) => (part :: parts, r)
    | r => some ([part], r)

/-- Reads a key; its last part is given apart. -/
def key? : Reader (List String × String) := fun s => do
  let (parts, r) ← keyParts? s.length s
  let last ← parts.getLast?
  if parts.length ≤ maxDepth then some ((parts.dropLast, last), r) else none

/-! ## Numbers -/

/-- No two underscores stand side by side. -/
def underscoresApart : List Char → Bool
  | [] => true
  | c :: rest => !(c == '_' && rest.head? == some '_') && underscoresApart rest

/-- Reads digits, between which single underscores may stand. -/
def digitsOf? (isDigit : Char → Bool) : Reader (List Char) := fun s =>
  let inRun := fun c => isDigit c || c == '_'
  let run := s.takeWhile inRun
  if run.head?.any isDigit && run.getLast?.any isDigit && underscoresApart run then
    some (run.filter isDigit, s.dropWhile inRun)
  else none

/-- Reads decimal digits, which start with a zero only if that is all. -/
def wholePart? : Reader (List Char)
  | '0' :: r => some (['0'], r)
  | s => digitsOf? Char.isDigit s

def sign : List Char → Bool × List Char
  | '-' :: r => (true, r)
  | '+' :: r => (false, r)
  | s => (false, s)

/-- The value of the number if it is between the bounds of 64 bits, signed. -/
def int64? (negative : Bool) (n : Nat) : Option Value :=
  if negative then if n ≤ 1 <<< 63 then some (.int (-n)) else none
  else if n < 1 <<< 63 then some (.int n) else none

/-- The double nearest to the digits `n` times a power of ten. The exponent counts only
as far as doubles reach. -/
def nearest (negative : Bool) (n : Nat) (power : Int) : Option Binary64 :=
  if n = 0 then Binary64.ofRatio? negative 0 1
  else
    let size := (Nat.toDigits 10 n).length
    if power + size < -400 then Binary64.ofRatio? negative 0 1
    else if 400 < power + size then none
    else if 0 ≤ power then Binary64.ofRatio? negative (n * tenTo power.toNat) 1
    else Binary64.ofRatio? negative n (tenTo (-power).toNat)

/-- Reads an exponent if there is one. -/
def exponent? : Reader (Option Int)
  | c :: r =>
    if c = 'e' || c = 'E' then
      let (negative, r) := sign r
      (digitsOf? Char.isDigit r).map fun (ds, r) =>
        let n : Int := Text.numeral ds
        (some (if negative then -n else n), r)
    else some (none, c :: r)
  | [] => some (none, [])

def places? : Reader (Option (List Char))
  | '.' :: r => (digitsOf? Char.isDigit r).map fun (ds, r) => (some ds, r)
  | s => some (none, s)

/-- Reads a decimal number. It is whole without a point and an exponent; one that is not
must not be larger than all doubles, but may be smaller. -/
def decimalNumber? : Reader Value := fun s => do
  let (negative, s) := sign s
  let (whole, s) ← wholePart? s
  let (places, s) ← places? s
  let (exponent, s) ← exponent? s
  match places, exponent with
  | none, none => return (← int64? negative (Text.numeral whole), s)
  | _, _ =>
    let ds := places.getD []
    let x := nearest negative (Text.numeral (whole ++ ds)) (exponent.getD 0 - ds.length)
    if x.isNone && !negative then none else return (.float x, s)

/-- The value of digits in the base `base`. -/
def valueIn (base : Nat) (digits : List Char) : Nat :=
  digits.foldl (fun n c => base * n + (Text.hexValue? c).getD 0) 0

def isDigitIn (base : Nat) (c : Char) : Bool := (Text.hexValue? c).any (· < base)

/-- Reads a whole number in the base `base`, after the letter that names it. -/
def radixNumber? (base : Nat) : Reader Value := fun s => do
  let (ds, r) ← digitsOf? (isDigitIn base) s
  return (← int64? false (valueIn base ds), r)

/-- Reads the words for numbers that are not finite. -/
def specialNumber? : Reader Value := fun s =>
  match (sign s).2 with
  | 'i' :: 'n' :: 'f' :: r => some (.float none, r)
  | 'n' :: 'a' :: 'n' :: r => some (.float none, r)
  | _ => none

/-! ## Dates and times -/

/-- Reads a two-digit number from `low` to `high`. -/
def twoDigits? (low high : Nat) : Reader Nat := fun s => do
  let (n, r) ← Timestamp.readDigits? 2 s
  if low ≤ n && n ≤ high then some (n, r) else none

/-- What follows a date. -/
def afterDate? (s : List Char) : Option (List Char) := do
  let (year, s) ← Timestamp.readDigits? 4 s
  let s ← Timestamp.readChar? '-' s
  let (month, s) ← twoDigits? 1 12 s
  let s ← Timestamp.readChar? '-' s
  let (_, s) ← twoDigits? 1 (daysInMonth year month) s
  return s

/-- What follows a time of day, which may be a leap second. -/
def afterTime? (s : List Char) : Option (List Char) := do
  let (_, s) ← twoDigits? 0 23 s
  let s ← Timestamp.readChar? ':' s
  let (_, s) ← twoDigits? 0 59 s
  let s ← Timestamp.readChar? ':' s
  let (_, s) ← twoDigits? 0 60 s
  match s with
  | '.' :: r => if r.head?.any Char.isDigit then some (r.dropWhile Char.isDigit) else some s
  | _ => some s

/-- What follows a date with or without a time and an offset, or a time alone. -/
def moment? : Reader Value := fun s =>
  match afterDate? s with
  | none => (afterTime? s).map fun r => (.moment, r)
  | some r =>
    match r with
    | c :: rest =>
      if c = 'T' || c = 't' || c = ' ' then
        match afterTime? rest with
        | none => some (.moment, r)
        | some r =>
          match Timestamp.readOffset? r with
          | some (_, r) => some (.moment, r)
          | none => some (.moment, r)
      else some (.moment, r)
    | [] => some (.moment, r)

/-- The text starts like a date or a time, and so is nothing else. -/
def startsMoment (s : List Char) : Bool :=
  let digits := s.takeWhile Char.isDigit
  match s.dropWhile Char.isDigit with
  | '-' :: _ => digits.length == 4
  | ':' :: _ => digits.length == 2
  | _ => false

/-! ## Values -/

/-- Reads items set apart by commas up to the bracket `close`. -/
def items? {α : Type} (skip : List Char → List Char) (trailing : Bool) (item : Reader α)
    (close : Char) : Nat → Reader (List α)
  | 0, _ => none
  | n + 1, s => do
    let (x, r) ← item (skip s)
    match skip r with
    | [] => none
    | c :: r =>
      if c = close then some ([x], r)
      else if c = ',' then
        let rest := skip r
        if trailing && rest.head? == some close then some ([x], rest.drop 1)
        else (items? skip trailing item close n r).map fun (xs, r) => (x :: xs, r)
      else none

def list? {α : Type} (skip : List Char → List Char) (trailing : Bool) (item : Reader α)
    (close : Char) : Reader (List α) := fun s =>
  let rest := skip s
  if rest.head? == some close then some ([], rest.drop 1)
  else items? skip trailing item close s.length s

/-- Reads a key, an equals sign and a value. -/
def pair? (value : Reader Value) : Reader ((List String × String) × Value) := fun s => do
  let (key, r) ← key? s
  match r with
  | '=' :: r =>
    let (v, r) ← value (skipSpace r)
    return ((key, v), r)
  | _ => none

def scalar? : Reader Value := fun s =>
  match s with
  | 't' :: 'r' :: 'u' :: 'e' :: r => some (.bool true, r)
  | 'f' :: 'a' :: 'l' :: 's' :: 'e' :: r => some (.bool false, r)
  | '0' :: 'x' :: r => radixNumber? 16 r
  | '0' :: 'o' :: r => radixNumber? 8 r
  | '0' :: 'b' :: r => radixNumber? 2 r
  | '"' :: _ => (string? s).map fun (s, r) => (.str s, r)
  | '\'' :: _ => (string? s).map fun (s, r) => (.str s, r)
  | _ =>
    if startsMoment s then moment? s
    else (specialNumber? s).or (decimalNumber? s)

/-- Reads a value in which at most `depth` brackets are open at once. An array may go
over several lines and end with a comma; an inline table may not. -/
def value? (depth : Nat) : Reader Value := fun s =>
  match s with
  | '[' :: r =>
    match depth with
    | 0 => none
    | depth + 1 =>
      (list? skipBlank true (value? depth) ']' r).map fun (vs, r) => (.arr vs, r)
  | '{' :: r =>
    match depth with
    | 0 => none
    | depth + 1 => do
      let (pairs, r) ← list? skipSpace false (pair? (value? depth)) '}' r
      let es ← pairs.foldlM (fun es ((path, key), v) => Entries.insert? true path key v es) []
      return (.table .inline es, r)
  | _ => scalar? s

/-! ## Documents -/

/-- The tables so far, and the path of the table that the lines belong to. -/
structure Draft where
  entries : Entries
  current : List String

/-- Reads a header after its first bracket. -/
def header? (draft : Draft) (s : List Char) : Option (Draft × List Char) :=
  match s with
  | '[' :: s => do
    let ((path, key), r) ← key? s
    match r with
    | ']' :: ']' :: r =>
      return (⟨← Entries.openElement? path key draft.entries, path ++ [key]⟩, r)
    | _ => none
  | s => do
    let ((path, key), r) ← key? s
    match r with
    | ']' :: r => return (⟨← Entries.openTable? path key draft.entries, path ++ [key]⟩, r)
    | _ => none

/-- Reads a line with a key and a value. -/
def entry? (draft : Draft) (s : List Char) : Option (Draft × List Char) := do
  let (((path, key), v), r) ← pair? (value? maxDepth) s
  let es ← draft.entries.updateAt? (Entries.insert? true path key v) draft.current
  return (⟨es, draft.current⟩, r)

def lines? : Nat → Draft → List Char → Option Entries
  | 0, draft, s => if s = [] then some draft.entries else none
  | n + 1, draft, s =>
    match skipBlank s with
    | [] => some draft.entries
    | '#' :: r => if r.all isPrintable then some draft.entries else none
    | '[' :: r => do
      let (draft, r) ← header? draft r
      lines? n draft (← afterLine? r)
    | s => do
      let (draft, r) ← entry? draft s
      lines? n draft (← afterLine? r)

/-- Reads a document, before which a byte order mark may stand. -/
def parse? (s : String) : Option Entries :=
  let chars := match s.toList with
    | c :: rest => if c.toNat = 0xFEFF then rest else c :: rest
    | [] => []
  lines? (chars.length + 1) ⟨[], []⟩ chars

end BorderControl.Toml
