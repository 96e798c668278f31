import BorderControl.Proofs.Findings
import BorderControl.Proofs.Rereading

/-!
# Findings of what is read back

A decimal read back has lost at most the sign of a zero, and sums and comparisons do not
look at that. So every rule takes the same step on a case and on the case read back
(`Rule.step_reread`), and a declaration has the same findings before and after
(`Declaration.standardFindings_reread`).
-/

namespace BorderControl

/-! ## Weights -/

namespace Decimal

theorem coefficient_reread (d : Decimal) : d.reread.coefficient = d.coefficient := by
  unfold coefficient signed reread
  by_cases h : d.magnitude = 0 <;> simp [h]

theorem add?_reread (a b : Decimal) : a.add? b.reread = a.add? b := by
  simp only [add?, coefficientAt, coefficient_reread]
  rfl

theorem sub?_reread (a b : Decimal) : a.reread.sub? b = a.sub? b := by
  simp only [sub?, coefficientAt, coefficient_reread]
  rfl

end Decimal

theorem sumFrom?_reread : ∀ (weights : List Decimal) (total : Decimal),
    sumFrom? total (weights.map Decimal.reread) = sumFrom? total weights
  | [], _ => rfl
  | w :: weights, total => by
    simp only [List.map_cons, sumFrom?, Decimal.add?_reread, sumFrom?_reread weights]

theorem matchingLines_reread (declaredCode : String) (lines : List Notification.Line) :
    matchingLines declaredCode (lines.map Notification.Line.reread) =
      (matchingLines declaredCode lines).map Notification.Line.reread := by
  rw [matchingLines, matchingLines, List.filter_map]
  rfl

theorem notifiedWeight?_reread (declaredCode : String) (lines : List Notification.Line) :
    notifiedWeight? declaredCode (lines.map Notification.Line.reread) =
      notifiedWeight? declaredCode lines := by
  have hweights : ((matchingLines declaredCode lines).map Notification.Line.reread).filterMap
      (·.netWeight) = ((matchingLines declaredCode lines).filterMap (·.netWeight)).map
        Decimal.reread := by
    rw [List.filterMap_map, List.map_filterMap]
    rfl
  rw [notifiedWeight?, matchingLines_reread, hweights, sumFrom?_reread, notifiedWeight?]

theorem withinTolerance_reread (percent declared notified : Decimal) :
    withinTolerance percent declared.reread notified =
      withinTolerance percent declared notified := by
  rw [withinTolerance, Decimal.sub?_reread, withinTolerance]

/-! ## Cases -/

/-- The case with its declaration, commodity and notification read back. -/
def Case.reread (c : Case) : Case :=
  { c with
    declaration := c.declaration.reread
    commodity := c.commodity.reread
    notification := c.notification.map Notification.reread }

namespace Rule

theorem commodityCodeStep_reread (n : Notification) (declaredCode : String) :
    commodityCodeStep n.reread declaredCode = commodityCodeStep n declaredCode := by
  have hlines : n.reread.lines = n.lines.map Notification.Line.reread := rfl
  simp only [commodityCodeStep, hlines, matchingLines_reread, List.isEmpty_map, ne_eq,
    List.map_eq_nil_iff]

theorem weightStep_reread (percent : Decimal) (n : Notification) (mass : Decimal)
    (declaredCode : String) :
    weightStep percent n.reread mass.reread declaredCode =
      weightStep percent n mass declaredCode := by
  have hlines : n.reread.lines = n.lines.map Notification.Line.reread := rfl
  simp only [weightStep, hlines, notifiedWeight?_reread, withinTolerance_reread]

/-- A rule does not tell a case from the case read back. -/
theorem step_reread (r : Rule) (c : Case) : r.step c.reread = r.step c := by
  obtain ⟨d, commodity, code, certificate, n, document⟩ := c
  cases n with
  | none => cases r <;> rfl
  | some n =>
    cases r with
    | wrongCertificate => cases certificate <;> rfl
    | commodityCode =>
      obtain ⟨_, _ | declaredCode, _, _, _, _⟩ := commodity
      · rfl
      · exact commodityCodeStep_reread n declaredCode
    | weightTolerance percent =>
      obtain ⟨_, _ | declaredCode, _, _ | mass, _, _⟩ := commodity
      · rfl
      · rfl
      · rfl
      · exact weightStep_reread percent n mass declaredCode
    | _ => rfl

end Rule

theorem Chain.resolve_reread (chain : Chain) (c : Case) :
    chain.resolve c.reread = chain.resolve c :=
  resolve_congr fun r _ => r.step_reread c

/-! ## Findings -/

/-- The pair with its notification read back. -/
def Pairing.reread (p : Pairing) : Pairing :=
  { p with notification := p.notification.map Notification.reread }

theorem notificationsFor_reread (notifications : List Notification) (i : Identifier) :
    notificationsFor (notifications.map Notification.reread) i =
      (notificationsFor notifications i).map Notification.reread := by
  rw [notificationsFor, notificationsFor, List.filter_map]
  rfl

theorem pairingsOf_reread (notifications : List Notification) (d : Document) (i : Identifier) :
    pairingsOf (notifications.map Notification.reread) d i =
      (pairingsOf notifications d i).map Pairing.reread := by
  rw [pairingsOf, pairingsOf, notificationsFor_reread]
  cases notificationsFor notifications i with
  | nil => rfl
  | cons n rest => simp [Pairing.reread, Function.comp_def]

theorem pairings_reread (notifications : List Notification) (checkCode : String)
    (documents : List Document) :
    pairings (notifications.map Notification.reread) checkCode documents =
      (pairings notifications checkCode documents).map Pairing.reread := by
  have hwith : ∀ d, pairingsWith (notifications.map Notification.reread) d =
      (pairingsWith notifications d).map Pairing.reread := by
    intro d
    rw [pairingsWith, pairingsWith]
    cases d.identifier? with
    | none => rfl
    | some i => exact pairingsOf_reread notifications d i
  rw [pairings_eq, pairings_eq]
  split
  · rfl
  · rw [List.map_flatMap]
    exact congrArg ((evidence checkCode documents).flatMap ·) (funext hwith)

theorem findingFor_reread (chain : Chain) (d : Declaration) (commodity : Commodity)
    (checkCode : String) (p : Pairing) :
    findingFor chain d.reread commodity.reread checkCode p.reread =
      findingFor chain d commodity checkCode p := by
  have houtcome := chain.resolve_reread ⟨d, commodity, checkCode,
    certificateForCheck? checkCode, p.notification, p.document⟩
  simp only [Case.reread] at houtcome
  simp only [findingFor, Pairing.reread, houtcome, Option.map_map]
  rfl

theorem reasonsFor_reread (commodity : Commodity) (f : Finding) (findings : List Finding) :
    reasonsFor commodity.reread f findings = reasonsFor commodity f findings := by
  simp only [reasonsFor, goodsMovementReason, Commodity.documentsOf, Commodity.reread]

theorem explained_reread (commodity : Commodity) (findings : List Finding) :
    explained commodity.reread findings = explained commodity findings := by
  simp only [explained, reasonsFor_reread]

theorem Check.standardFindings_reread (check : Check) (s : RuleSettings) (d : Declaration)
    (notifications : List Notification) (commodity : Commodity) :
    check.standardFindings s d.reread (notifications.map Notification.reread) commodity.reread =
      check.standardFindings s d notifications commodity := by
  have hpairs : pairings (notifications.map Notification.reread) check.code
      commodity.reread.documents = (pairings notifications check.code
        commodity.documents).map Pairing.reread :=
    pairings_reread notifications check.code commodity.documents
  rw [standardFindings, hpairs, List.map_map, explained_reread, standardFindings]
  exact congrArg (explained commodity) (List.map_congr_left fun p _ =>
    findingFor_reread _ d commodity check.code p)

/-- What is read back has the same findings. -/
theorem Declaration.standardFindings_reread (d : Declaration) (s : RuleSettings)
    (notifications : List Notification) :
    d.reread.standardFindings s (notifications.map Notification.reread) =
      d.standardFindings s notifications := by
  rw [standardFindings, reread, List.flatMap_map]
  exact congrArg (d.commodities.flatMap ·) (funext fun commodity =>
    congrArg (commodity.checks.flatMap ·) (funext fun check =>
      check.standardFindings_reread s d notifications commodity))

end BorderControl
