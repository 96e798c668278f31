import BorderControl.Form.Declaration
import BorderControl.Linking

/-!
# Link reports as JSON

Groups are written with the MRN and the item they belong to, linked ones also with the
reference of the notification.
-/

namespace BorderControl

def DocumentGroup.fields (g : DocumentGroup) : List (String × Json) := [
  ("mrn", toJson g.mrn),
  ("item_number", toJson g.itemNumber),
  ("document_reference", toJson g.document.reference),
  ("document_code", toJson g.document.code)]

def LinkReport.toJson (r : LinkReport) : Json :=
  let linked := r.linked.map fun (g, reference) =>
    Json.obj (("notification_reference", .str reference) :: g.fields)
  let unlinked := r.unlinked.map fun g => Json.obj g.fields
  .obj [("matches", .arr linked), ("no_matches", .arr unlinked)]

end BorderControl
