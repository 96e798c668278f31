import BorderControl.Declaration
import BorderControl.Form.Decision
import BorderControl.Form.Notification

/-!
# Declarations as JSON

A declaration must give its MRN, a commodity its item number, a document and a check
their code. A manual release, a document's reference and all lists have defaults.
-/

namespace BorderControl

instance : JsonForm Finalisation where
  toJson f := .obj [
    ("final_state", toJson f.finalState),
    ("is_manual_release", toJson f.isManualRelease)]
  ofJson? j := do
    let r ← j.record? ["final_state", "is_manual_release"]
    return {
      finalState := ← Json.field "final_state" r
      isManualRelease := ← Json.fieldOr false "is_manual_release" r }

instance : JsonForm Document where
  toJson d := .obj [
    ("document_code", toJson d.code),
    ("document_reference", toJson d.reference)]
  ofJson? j := do
    let r ← j.record? ["document_code", "document_reference"]
    return {
      code := ← Json.field "document_code" r
      reference := ← Json.fieldOr "" "document_reference" r }

instance : JsonForm Check where
  toJson c := .obj [("check_code", toJson c.code)]
  ofJson? j := do
    let r ← j.record? ["check_code"]
    return { code := ← Json.field "check_code" r }

instance : JsonForm Commodity where
  toJson c := .obj [
    ("item_number", toJson c.itemNumber),
    ("commodity_code", toJson c.commodityCode),
    ("description", toJson c.description),
    ("net_mass", toJson c.netMass),
    ("documents", toJson c.documents),
    ("checks", toJson c.checks)]
  ofJson? j := do
    let r ← j.record? ["item_number", "commodity_code", "description", "net_mass", "documents",
      "checks"]
    return {
      itemNumber := ← Json.field "item_number" r
      commodityCode := ← Json.fieldOr none "commodity_code" r
      description := ← Json.fieldOr none "description" r
      netMass := ← Json.fieldOr none "net_mass" r
      documents := ← Json.fieldOr [] "documents" r
      checks := ← Json.fieldOr [] "checks" r }

instance : JsonForm Declaration where
  toJson d := .obj [
    ("mrn", toJson d.mrn),
    ("version", toJson d.version),
    ("finalisation", toJson d.finalisation),
    ("commodities", toJson d.commodities),
    ("decision", toJson d.decision)]
  ofJson? j := do
    let r ← j.record? ["mrn", "version", "finalisation", "commodities", "decision"]
    return {
      mrn := ← Json.field "mrn" r
      version := ← Json.fieldOr none "version" r
      finalisation := ← Json.fieldOr none "finalisation" r
      commodities := ← Json.fieldOr [] "commodities" r
      decision := ← Json.fieldOr none "decision" r }

instance : JsonForm Dossier where
  toJson d := .obj [
    ("declarations", toJson d.declarations),
    ("notifications", toJson d.notifications)]
  ofJson? j := do
    let r ← j.record? ["declarations", "notifications"]
    return {
      declarations := ← Json.fieldOr [] "declarations" r
      notifications := ← Json.fieldOr [] "notifications" r }

end BorderControl
