import BorderControl.Declaration
import BorderControl.Text

/-!
# Certificate references

A reference names a certificate by the year and the seven digits of its number: after a
prefix come an optional dot, the year, an optional dot, the number, and on the parent of
a split consignment the letter `R` or `V`. The prefix is that of the family's
notifications, or `GBCHD`, which customs declarations use for all families. Blank ends
and case do not count.

`Reference.parse?` reads a reference and keeps what names the certificate, its
`Identifier`. So `GBCHD2025.1234567` on a declaration and `CHEDA.GB.2025.1234567` on a
notification are the same certificate.
-/

namespace BorderControl

/-- The year and the number of a certificate, digit by digit. -/
structure Identifier where
  year : List Char
  number : List Char
deriving DecidableEq, Repr

def Identifier.text (i : Identifier) : String := String.ofList (i.year ++ '.' :: i.number)

namespace Reference

/-- The prefix on customs declarations, whatever the family. -/
def declarationPrefix : String := "GBCHD"

/-- What follows the prefix, if the reference has one. -/
def afterPrefix? (c : Certificate) (s : List Char) : Option (List Char) :=
  (Text.after? c.notificationPrefix.toList s).or (Text.after? declarationPrefix.toList s)

/-- What follows an optional dot. -/
def afterDot : List Char → List Char
  | '.' :: rest => rest
  | s => s

/-- Reads a reference in capitals and without blank ends. -/
def parseChars? (c : Certificate) (s : List Char) : Option Identifier := do
  let s ← afterPrefix? c s
  let (year, s) ← Text.takeDigits? 4 (afterDot s)
  if year.take 2 ≠ ['2', '0'] then none
  else
    let (number, s) ← Text.takeDigits? 7 (afterDot s)
    if s = [] ∨ s = ['R'] ∨ s = ['V'] then some ⟨year, number⟩ else none

/-- The certificate that `s` names as a reference of the family `c`. -/
def parse? (c : Certificate) (s : String) : Option Identifier :=
  parseChars? c (Text.codeForm s).toList

end Reference

/-- The certificate that a notification stands for. -/
def Notification.identifier? (n : Notification) : Option Identifier :=
  Reference.parse? n.certificate n.reference

end BorderControl
