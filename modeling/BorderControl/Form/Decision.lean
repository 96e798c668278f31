import BorderControl.Decision
import BorderControl.Json.Form

/-!
# Decisions as JSON

An empty object is the decision that says nothing (`Decision.blank`). Items, checks,
results and findings must give the numbers and codes that identify them, and checks,
results and findings their decision code.
-/

namespace BorderControl

instance : JsonForm Finding where
  toJson f := .obj [
    ("mrn", toJson f.mrn),
    ("item_number", toJson f.itemNumber),
    ("document_reference", toJson f.documentReference),
    ("document_code", toJson f.documentCode),
    ("check_code", toJson f.checkCode),
    ("notification_reference", toJson f.notificationReference),
    ("decision_code", toJson f.decisionCode),
    ("internal_code", toJson f.detailCode),
    ("reasons", toJson f.reasons)]
  ofJson? j := do
    let r ← j.record? ["mrn", "item_number", "document_reference", "document_code", "check_code",
      "notification_reference", "decision_code", "internal_code", "reasons"]
    return {
      mrn := ← Json.field "mrn" r
      itemNumber := ← Json.field "item_number" r
      documentReference := ← Json.fieldOr none "document_reference" r
      documentCode := ← Json.fieldOr none "document_code" r
      checkCode := ← Json.field "check_code" r
      notificationReference := ← Json.fieldOr none "notification_reference" r
      decisionCode := ← Json.field "decision_code" r
      detailCode := ← Json.fieldOr none "internal_code" r
      reasons := ← Json.fieldOr [] "reasons" r }

instance : JsonForm CheckDecision where
  toJson c := .obj [
    ("check_code", toJson c.checkCode),
    ("decision_code", toJson c.decisionCode),
    ("decision_reasons", toJson c.reasons),
    ("internal_codes", toJson c.detailCodes)]
  ofJson? j := do
    let r ← j.record? ["check_code", "decision_code", "decision_reasons", "internal_codes"]
    return {
      checkCode := ← Json.field "check_code" r
      decisionCode := ← Json.field "decision_code" r
      reasons := ← Json.fieldOr [] "decision_reasons" r
      detailCodes := ← Json.fieldOr [] "internal_codes" r }

instance : JsonForm ItemDecision where
  toJson i := .obj [("item_number", toJson i.itemNumber), ("checks", toJson i.checks)]
  ofJson? j := do
    let r ← j.record? ["item_number", "checks"]
    return {
      itemNumber := ← Json.field "item_number" r
      checks := ← Json.fieldOr [] "checks" r }

instance : JsonForm Result where
  toJson x := .obj [
    ("item_number", toJson x.itemNumber),
    ("import_pre_notification", toJson x.notificationReference),
    ("document_reference", toJson x.documentReference),
    ("document_code", toJson x.documentCode),
    ("check_code", toJson x.checkCode),
    ("decision_code", toJson x.decisionCode),
    ("decision_reason", toJson x.reason),
    ("internal_code", toJson x.detailCode)]
  ofJson? j := do
    let r ← j.record? ["item_number", "import_pre_notification", "document_reference",
      "document_code", "check_code", "decision_code", "decision_reason", "internal_code"]
    return {
      itemNumber := ← Json.field "item_number" r
      notificationReference := ← Json.fieldOr none "import_pre_notification" r
      documentReference := ← Json.fieldOr none "document_reference" r
      documentCode := ← Json.fieldOr none "document_code" r
      checkCode := ← Json.field "check_code" r
      decisionCode := ← Json.field "decision_code" r
      reason := ← Json.fieldOr none "decision_reason" r
      detailCode := ← Json.fieldOr none "internal_code" r }

instance : JsonForm Decision where
  toJson d := .obj [
    ("source_version", toJson d.sourceVersion),
    ("created", toJson d.created),
    ("items", toJson d.items),
    ("results", toJson d.results)]
  ofJson? j := do
    let r ← j.record? ["source_version", "created", "items", "results"]
    return {
      sourceVersion := ← Json.fieldOr none "source_version" r
      created := ← Json.fieldOr none "created" r
      items := ← Json.fieldOr [] "items" r
      results := ← Json.fieldOr none "results" r }

end BorderControl
