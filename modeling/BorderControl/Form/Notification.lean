import BorderControl.Json.Form
import BorderControl.Notification

/-!
# Notifications as JSON

A notification must give its reference number, family and status; everything else may be
left out.
-/

namespace BorderControl

namespace Notification

instance : JsonForm FishingControl where
  toJson c := .obj [("check_required", toJson c.checkRequired), ("option", toJson c.finding)]
  ofJson? j := do
    let r ← j.record? ["check_required", "option"]
    return {
      checkRequired := ← Json.field "check_required" r
      finding := ← Json.fieldOr none "option" r }

instance : JsonForm PartTwo where
  toJson p := .obj [
    ("decision", toJson p.verdict),
    ("not_acceptable_action", toJson p.refusalAction),
    ("inspection_required", toJson p.inspection),
    ("iuu", toJson p.fishing)]
  ofJson? j := do
    let r ← j.record? ["decision", "not_acceptable_action", "inspection_required", "iuu"]
    return {
      verdict := ← Json.fieldOr none "decision" r
      refusalAction := ← Json.fieldOr none "not_acceptable_action" r
      inspection := ← Json.fieldOr none "inspection_required" r
      fishing := ← Json.fieldOr none "iuu" r }

instance : JsonForm Line where
  toJson l := .obj [
    ("commodity_code", toJson l.commodityCode),
    ("description", toJson l.description),
    ("net_weight", toJson l.netWeight)]
  ofJson? j := do
    let r ← j.record? ["commodity_code", "description", "net_weight"]
    return {
      commodityCode := ← Json.field "commodity_code" r
      description := ← Json.fieldOr none "description" r
      netWeight := ← Json.fieldOr none "net_weight" r }

end Notification

instance : JsonForm Notification where
  toJson n := .obj [
    ("reference_number", toJson n.reference),
    ("certificate_type", toJson n.certificate),
    ("version", toJson n.version),
    ("status", toJson n.status),
    ("part_two", toJson n.partTwo),
    ("commodities", toJson n.lines),
    ("updated", toJson n.updated)]
  ofJson? j := do
    let r ← j.record? ["reference_number", "certificate_type", "version", "status", "part_two",
      "commodities", "updated"]
    return {
      reference := ← Json.field "reference_number" r
      certificate := ← Json.field "certificate_type" r
      version := ← Json.fieldOr none "version" r
      status := ← Json.field "status" r
      partTwo := ← Json.fieldOr none "part_two" r
      lines := ← Json.fieldOr [] "commodities" r
      updated := ← Json.fieldOr none "updated" r }

end BorderControl
