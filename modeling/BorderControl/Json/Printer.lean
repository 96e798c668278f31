import BorderControl.Json

/-!
# Writing JSON

A `Layout` says what stands between the parts of a value: `compact` has nothing there,
`indented` starts a line for every element and member. `Json.write` writes a value in a
layout. Strings are escaped only where they must be (`escape`), so letters outside ASCII
stand for themselves.
-/

namespace BorderControl.Json

/-! ## Strings and numbers -/

/-- The last four hexadecimal digits of `n`. -/
def hex4 (n : Nat) : List Char :=
  [n / 4096 % 16, n / 256 % 16, n / 16 % 16, n % 16].map Nat.digitChar

/-- A quote, a backslash and the characters below the space are escaped, the latter by
their letter if they have one. -/
def escape (c : Char) : List Char :=
  if c = '"' then ['\\', '"']
  else if c = '\\' then ['\\', '\\']
  else if 0x20 ≤ c.toNat then [c]
  else if c = '\n' then ['\\', 'n']
  else if c = '\r' then ['\\', 'r']
  else if c = '\t' then ['\\', 't']
  else if c.toNat = 0x08 then ['\\', 'b']
  else if c.toNat = 0x0C then ['\\', 'f']
  else '\\' :: 'u' :: hex4 c.toNat

def quote (s : String) : List Char := '"' :: s.toList.flatMap escape ++ ['"']

def intText (n : Int) : List Char :=
  if n < 0 then '-' :: Nat.toDigits 10 n.natAbs else Nat.toDigits 10 n.natAbs

/-- The shortest digits of a double, a tie to the even one. They are written in
positional notation with at least one place while the point stays within five zeros to
the left of the first digit and sixteen digits to the right of it, else with an
exponent. -/
def realText (x : Binary64) : List Char :=
  let ⟨c, p⟩ := x.shortest .toEven
  let digits := Nat.toDigits 10 c
  let point := (digits.length : Int) + p
  let body :=
    if x.isZero then ['0', '.', '0']
    else if 0 ≤ p && point ≤ 16 then positional (c * tenTo p.toNat) 0 ++ ['.', '0']
    else if p < 0 && -5 < point && point ≤ 16 then positional c (-p).toNat
    else
      let tail := digits.drop 1
      digits.take 1 ++ (if tail = [] then [] else '.' :: tail) ++ 'e' :: intText (point - 1)
  if x.negative then '-' :: body else body

/-! ## Values -/

/-- What is written before an element, or before the closing bracket, at each depth, and
what is written after the colon of a member. -/
structure Layout where
  gap : Nat → List Char
  afterColon : List Char

/-- No blanks at all. -/
def Layout.compact : Layout := ⟨fun _ => [], []⟩

/-- A line for every element and member, two spaces deeper than what holds it. -/
def Layout.indented : Layout := ⟨fun depth => '\n' :: List.replicate (2 * depth) ' ', [' ']⟩

mutual

def write (l : Layout) (depth : Nat) : Json → List Char
  | .null => ['n', 'u', 'l', 'l']
  | .bool true => ['t', 'r', 'u', 'e']
  | .bool false => ['f', 'a', 'l', 's', 'e']
  | .int n => intText n
  | .real x => realText x
  | .str s => quote s
  | .arr [] => ['[', ']']
  | .arr (j :: rest) =>
    '[' :: l.gap (depth + 1) ++ write l (depth + 1) j ++ writeElements l depth rest
  | .obj [] => ['{', '}']
  | .obj ((n, j) :: rest) =>
    '{' :: l.gap (depth + 1) ++ quote n ++ ':' :: l.afterColon ++ write l (depth + 1) j ++
      writeMembers l depth rest

/-- The elements after the first and the closing bracket. -/
def writeElements (l : Layout) (depth : Nat) : List Json → List Char
  | [] => l.gap depth ++ [']']
  | j :: rest =>
    ',' :: l.gap (depth + 1) ++ write l (depth + 1) j ++ writeElements l depth rest

/-- The members after the first and the closing bracket. -/
def writeMembers (l : Layout) (depth : Nat) : List (String × Json) → List Char
  | [] => l.gap depth ++ ['}']
  | (n, j) :: rest =>
    ',' :: l.gap (depth + 1) ++ quote n ++ ':' :: l.afterColon ++ write l (depth + 1) j ++
      writeMembers l depth rest

end

/-- The text of a value without blanks. -/
def compactText (j : Json) : String := String.ofList (write .compact 0 j)

/-- The text of a value on several lines. -/
def indentedText (j : Json) : String := String.ofList (write .indented 0 j)

end BorderControl.Json
