import BorderControl.Reference

/-!
# Check codes and the documents that answer them

Each check code belongs to a certificate family and is answered by documents with
certain codes (`checkFamilies`). A check code outside the table is an orphan and belongs
to no family. Codes are compared in their `Text.codeForm`.

A document counts for a check if its code answers the check and its reference names a
certificate of its own family (`Document.qualifiesFor`).
-/

namespace BorderControl

/-- A check code, its family, and the codes of the documents that answer it. -/
structure CheckFamily where
  checkCode : String
  certificate : Certificate
  documentCodes : List String

/-- The inspection of plants on the move. -/
def goodsMovementCheck : String := "H220"

/-- The check for illegal, unreported and unregulated fishing. -/
def fishingCheck : String := "H224"

def checkFamilies : List CheckFamily := [
  ⟨"H221", .chedA, ["C640"]⟩,
  ⟨"H222", .chedP, ["N853"]⟩,
  ⟨fishingCheck, .chedP, ["C673", "N853"]⟩,
  ⟨"H223", .chedD, ["C678", "N852"]⟩,
  ⟨"H218", .chedPP, ["N002", "C085"]⟩,
  ⟨"H219", .chedPP, ["N851", "9115", "C085"]⟩,
  ⟨goodsMovementCheck, .chedPP, ["N002", "C085"]⟩]

/-- Documents with the code `documentCode` answer the checks of the family. -/
def CheckFamily.accepts (family : CheckFamily) (documentCode : String) : Bool :=
  family.documentCodes.any fun code => Text.sameLetters code (Text.trim documentCode)

/-- The row of the table for a check code. -/
def checkFamily? (checkCode : String) : Option CheckFamily :=
  checkFamilies.find? fun family => Text.sameLetters family.checkCode (Text.trim checkCode)

/-- The certificate that a check asks for; none for an orphan. -/
def certificateForCheck? (checkCode : String) : Option Certificate :=
  (checkFamily? checkCode).map (·.certificate)

/-- The certificate that a document with this code is. -/
def certificateForDocument? (documentCode : String) : Option Certificate :=
  (checkFamilies.find? (·.accepts documentCode)).map (·.certificate)

/-- A document with the first code answers a check with the second. -/
def codeAnswersCheck (documentCode checkCode : String) : Bool :=
  match checkFamily? checkCode with
  | some family => family.accepts documentCode
  | none => false

namespace Document

/-- The certificate that a document names. A code of no family names none. -/
def identifier? (d : Document) : Option Identifier := do
  Reference.parse? (← certificateForDocument? d.code) d.reference

def isWellFormed (d : Document) : Bool := d.identifier?.isSome

/-- The document counts for the check. -/
def qualifiesFor (d : Document) (checkCode : String) : Bool :=
  codeAnswersCheck d.code checkCode && d.isWellFormed

end Document

end BorderControl
