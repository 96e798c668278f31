/-!
# Text

What the rest of the library asks of text: which characters are blank, what is left
once the blank ends are cut off (`trim`), and when two texts have the same letters
whatever their case (`sameLetters`). Codes on declarations are compared by
`codeForm`, which drops blank ends and case together. Readers of numbers and references
share the last part, on digits.

Texts are ordered by the built-in order on `String`, by code point from the left; on
UTF-8 that is the order of the bytes.
-/

namespace BorderControl.Text

/-- The characters of the Unicode property `White_Space`. -/
def isBlank (c : Char) : Bool :=
  let n := c.toNat
  (9 ≤ n && n ≤ 13) || n == 0x20 || n == 0x85 || n == 0xA0 || n == 0x1680 ||
    (0x2000 ≤ n && n ≤ 0x200A) || n == 0x2028 || n == 0x2029 || n == 0x202F ||
    n == 0x205F || n == 0x3000

/-- `s` without the blank characters at its ends. -/
def trimChars (s : List Char) : List Char :=
  ((s.dropWhile isBlank).reverse.dropWhile isBlank).reverse

def trim (s : String) : String := String.ofList (trimChars s.toList)

/-- `s` has no character but blank ones. -/
def allBlank (s : String) : Bool := s.toList.all isBlank

/-- `s` with the letters `a` to `z` raised; no other character changes. -/
def upper (s : String) : String := String.ofList (s.toList.map Char.toUpper)

/-- `a` and `b` differ at most in the case of ASCII letters. -/
def sameLetters (a b : String) : Bool := upper a == upper b

/-- The form in which codes are compared: no blank ends, no lower case. -/
def codeForm (s : String) : String := upper (trim s)

/-- What follows `p` in `s`, if `s` starts with `p`. -/
def after? : List Char → List Char → Option (List Char)
  | [], s => some s
  | _ :: _, [] => none
  | c :: p, d :: s => if c = d then after? p s else none

/-! ## Digits -/

/-- The number that a run of digits stands for. -/
def numeral (digits : List Char) : Nat := Nat.ofDigitChars 10 digits 0

/-- The first `n` characters, which must be digits, and what follows them. -/
def takeDigits? (n : Nat) (s : List Char) : Option (List Char × List Char) :=
  let digits := s.take n
  if digits.length = n && digits.all Char.isDigit then some (digits, s.drop n) else none

/-- The value of a hexadecimal digit. -/
def hexValue? (c : Char) : Option Nat :=
  if c.isDigit then some (c.toNat - '0'.toNat)
  else if 'a' ≤ c && c ≤ 'f' then some (c.toNat - 'a'.toNat + 10)
  else if 'A' ≤ c && c ≤ 'F' then some (c.toNat - 'A'.toNat + 10)
  else none

/-- The number that hexadecimal digits stand for. -/
def hexNumeral? (digits : List Char) : Option Nat :=
  (digits.mapM hexValue?).map fun values => values.foldl (fun n v => 16 * n + v) 0

end BorderControl.Text
