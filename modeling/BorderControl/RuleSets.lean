import BorderControl.Chain
import BorderControl.DerivationError
import BorderControl.Json.Form

/-!
# Rule sets

Every certificate family has its own chain, and orphan checks share one (`RuleSets`). In
the standard sets each chain starts with the same structural rules and ends with the
commodity rules; what lies between is the family's own. A family without a chain cannot
be decided (`RuleSets.select`).
-/

namespace BorderControl

/-- What can be set about the commodity rules. -/
structure RuleSettings where
  /-- How far, in percent, a declared mass may be from the notified weight. -/
  weightTolerance : Decimal
  /-- Whether weights are compared at all. -/
  weightValidation : Bool
deriving DecidableEq, Repr

def RuleSettings.standard : RuleSettings := ⟨.ten, true⟩

instance : JsonForm RuleSettings where
  toJson s := .obj [
    ("weight_tolerance_percent", toJson s.weightTolerance),
    ("weight_validation", toJson s.weightValidation)]
  ofJson? j := do
    let r ← j.record? ["weight_tolerance_percent", "weight_validation"]
    return {
      weightTolerance :=
        ← Json.fieldOr RuleSettings.standard.weightTolerance "weight_tolerance_percent" r
      weightValidation :=
        ← Json.fieldOr RuleSettings.standard.weightValidation "weight_validation" r }

/-- A chain per family, and the chain of orphan checks. -/
structure RuleSets where
  chain? : Certificate → Option Chain
  orphan : Chain

namespace RuleSets

/-- The rules that every chain starts with. -/
def structural : Chain :=
  [.orphanCheckCode, .unlinkedNotification, .wrongCertificate, .notificationStatus,
    .terminalDeclaration]

/-- The rules between the structural and the commodity rules. -/
def own : Certificate → Chain
  | .chedA => [.amendment, .inspectionRequired, .missingSupportingData, .chedADecision]
  | .chedP =>
    [.amendment, .inspectionRequired, .missingSupportingData, .fishingControl, .chedPDecision]
  | .chedD => [.amendment, .inspectionRequired, .missingSupportingData, .chedDDecision]
  | .chedPP => [.missingSupportingData, .chedPPDecision]

def commodityRules (s : RuleSettings) : Chain :=
  .commodityCode :: if s.weightValidation then [.weightTolerance s.weightTolerance] else []

def standard (s : RuleSettings) : RuleSets where
  chain? c := some (structural ++ own c ++ commodityRules s)
  orphan := structural

/-- The chain of a family, or of orphan checks. -/
def select (sets : RuleSets) : Option Certificate → Except DerivationError Chain
  | none => .ok sets.orphan
  | some c =>
    match sets.chain? c with
    | some chain => .ok chain
    | none => .error (.missingRuleSet c)

end RuleSets

end BorderControl
