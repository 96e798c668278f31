import BorderControl.CheckFamily
import BorderControl.DerivationError

/-!
# Reasons for traders

Only unresolved findings get a reason, and only where the declaration itself shows the
cause (`reasonsFor`). Either goods on the move have no document that counts, or there
are documents of the check's family and no finding of the check is linked to a
notification. The second reason names a document, and the authority to turn to
(`Authority`).
-/

namespace BorderControl

/-- Whom a trader is sent to. -/
inductive Authority where
  | animalAndPlantHealth
  | portHealth
  | fishing
deriving DecidableEq, Repr

namespace Authority

/-- The fishing check has an authority of its own, other checks that of their family. -/
def ofCheck (checkCode : String) (c : Certificate) : Authority :=
  if Text.sameLetters (Text.trim checkCode) fishingCheck then .fishing
  else
    match c with
    | .chedA | .chedPP => .animalAndPlantHealth
    | .chedP | .chedD => .portHealth

/-- How the reason goes on after the reference. -/
def advice : Authority → String
  | animalAndPlantHealth =>
    ". Check the reference is correct and contact the Animal and Plant Health Agency " ++
    "if the problem continues."
  | portHealth =>
    ". Check the reference is correct and contact the port health authority " ++
    "if the problem continues."
  | fishing =>
    ", so the illegal, unreported and unregulated fishing check cannot be completed. " ++
    "Contact the port health authority."

end Authority

/-- The reason for a check whose documents are linked to no notification. -/
def notLinkedReason (checkCode : String) (c : Certificate) (reference : String) : String :=
  s!"This {c.displayName} reference {reference} is not linked to a pre-notification" ++
    (Authority.ofCheck checkCode c).advice

/-- The reason for goods on the move without a document that counts. -/
def goodsMovementReason (c : Commodity) : String :=
  let code := c.commodityCode.getD "unknown"
  let description := c.description.getD "no description"
  s!"Item {c.itemNumber.toNat}, commodity code {code} ({description}), needs a plant health " ++
    "goods movement check but no valid CHED-PP document was declared."

def isGoodsMovement (checkCode : String) : Bool :=
  Text.sameLetters (Text.trim checkCode) goodsMovementCheck

/-- The documents of the commodity that are certificates of the family. -/
def Commodity.documentsOf (commodity : Commodity) (c : Certificate) : List Document :=
  commodity.documents.filter fun d => certificateForDocument? d.code == some c

/-- One of `findings` is for the same check as `f` and linked to a notification. -/
def Finding.hasLinkedSibling (f : Finding) (findings : List Finding) : Bool :=
  findings.any fun g =>
    g.itemNumber == f.itemNumber && g.checkCode == f.checkCode && g.notificationReference.isSome

/-- The reasons for a finding, given all findings of the same commodity. -/
def reasonsFor (commodity : Commodity) (f : Finding) (findings : List Finding) :
    Except DerivationError (List String) :=
  if f.decisionCode ≠ .x00 then .ok []
  else
    match certificateForCheck? f.checkCode with
    | none => .error (.checkCodeOutOfRange f.checkCode)
    | some c =>
      if isGoodsMovement f.checkCode && !commodity.documents.any (·.qualifiesFor f.checkCode) then
        .ok [goodsMovementReason commodity]
      else
        match commodity.documentsOf c with
        | [] => .ok []
        | first :: others =>
          if f.hasLinkedSibling findings then .ok []
          else
            let named := ((first :: others).find? (·.isWellFormed)).getD first
            .ok [notLinkedReason f.checkCode c (f.documentReference.getD named.reference)]

end BorderControl
