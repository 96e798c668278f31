import BorderControl.Proofs.Findings
import BorderControl.Proofs.Folding

/-!
# What a release rests on

In the standard chain of a family the rules that can release stand behind guards and in
front of guards (`RuleSets.standardChain_eq`). So a release passed all of the guards in
front, and either the fishing control made it, or the family's decision rule did and the
commodity rules had nothing against it (`Case.supports_of_release`).

A result that is a release therefore rests on a document and a notification that stand
for one certificate (`Finding.restsOn_of_release`). Every hold outranks a release, so an
item has a release only where all results of the check are releases
(`releases_of_mem_foldItems`).
-/

namespace BorderControl

/-- The border control post accepted the consignment: a plant certificate is validated,
any other has a verdict, and not that the goods are not acceptable. -/
def Notification.IsAccepted (n : Notification) : Prop :=
  if n.certificate = .chedPP then n.status = .validated
  else ∃ verdict, n.partTwo.bind (·.verdict) = some verdict ∧ verdict ≠ .nonAcceptable

/-- The fishing control has the finding that `code` stands for: the catch is compliant, or
need not be controlled. -/
def Notification.FishingControl.Grants (control : Notification.FishingControl) :
    DecisionCode → Prop
  | .c07 => control.checkRequired = true ∧ control.finding = some .compliant
  | .c08 => control.checkRequired = false ∨ control.finding = some .notApplicable
  | _ => False

/-- What stands behind the answer `code`, a release, to a case with the notification `n`. -/
structure Case.Supports (s : RuleSettings) (c : Case) (n : Notification)
    (code : DecisionCode) : Prop where
  certificate : c.certificate = some n.certificate
  status : n.status ∉ [.draft, .submitted, .inProgress, .cancelled, .deleted, .replaced,
    .splitConsignment]
  partTwo : n.partTwo.isSome = true
  declaration : c.declaration.isTerminal = false
  kind : code ∈ [.c03, .c05, .c06, .e03] ∨ code ∈ [.c07, .c08]
  decision : code ∈ [.c03, .c05, .c06, .e03] → n.IsAccepted ∧
    Rule.commodityCode.step c = .defer ∧
    (s.weightValidation = true → (Rule.weightTolerance s.weightTolerance).step c = .defer)
  fishing : code ∈ [.c07, .c08] → Text.sameLetters c.checkCode fishingCheck = true ∧
    ∃ control, n.partTwo.bind (·.fishing) = some control ∧ control.Grants code

namespace RuleSets

/-- The guards among the rules of a family. -/
def intake : Certificate → Chain
  | .chedA | .chedP | .chedD => [.amendment, .inspectionRequired, .missingSupportingData]
  | .chedPP => [.missingSupportingData]

/-- The fishing control, in the family that has it. -/
def fishingRules : Certificate → Chain
  | .chedP => [.fishingControl]
  | .chedA | .chedD | .chedPP => []

/-- The rule that turns the border control post's decision into an outcome. -/
def decisionRule : Certificate → Rule
  | .chedA => .chedADecision
  | .chedP => .chedPDecision
  | .chedD => .chedDDecision
  | .chedPP => .chedPPDecision

theorem standardChain_eq (s : RuleSettings) (c : Certificate) :
    standardChain s (some c) =
      (structural ++ intake c) ++ (fishingRules c ++ decisionRule c :: commodityRules s) := by
  cases c <;> rfl

theorem isGuard_structural : ∀ r ∈ structural, r.isGuard = true := by decide

theorem isGuard_front (c : Certificate) : ∀ r ∈ structural ++ intake c, r.isGuard = true := by
  cases c <;> decide

theorem isGuard_commodityRules (s : RuleSettings) :
    ∀ r ∈ commodityRules s, r.isGuard = true := by
  unfold commodityRules
  split <;> simp [Rule.isGuard]

end RuleSets

open RuleSets Rule

/-! ## The rules that decide -/

section Deciding

variable {c : Case} {n : Notification} {o : Outcome}

theorem isRelease_refusalCode (a : Option Notification.RefusalAction) :
    (refusalCode a).isRelease = false := by
  rcases a with _ | a
  · rfl
  · cases a <;> rfl

section Verdict

variable {release? : Notification.Verdict → Option DecisionCode}

theorem verdictStep_answer (h : verdictStep release? c = .answer o) :
    o.decisionCode.isRelease = false := by
  unfold verdictStep at h
  split at h
  · cases h
  · cases h
    exact isRelease_refusalCode _
  · split at h <;> cases h

theorem verdictStep_unlessVetoed (h : verdictStep release? c = .unlessVetoed o) :
    ∃ verdict, c.verdict? = some verdict ∧ verdict ≠ .nonAcceptable ∧
      release? verdict = some o.decisionCode := by
  unfold verdictStep at h
  split at h
  · cases h
  · cases h
  · next verdict hne hv =>
    split at h
    · next code hcode =>
      cases h
      exact ⟨verdict, hv, hne, hcode⟩
    · cases h

end Verdict

theorem statusStep_answer {status : Option Notification.Status}
    (h : statusStep status = .answer o) : o.decisionCode.isRelease = false := by
  unfold statusStep at h
  split at h <;> cases h <;> rfl

theorem statusStep_unlessVetoed {status : Option Notification.Status}
    (h : statusStep status = .unlessVetoed o) :
    status = some .validated ∧ o.decisionCode = .c03 := by
  unfold statusStep at h
  split at h <;> cases h
  exact ⟨rfl, rfl⟩

/-- The decision rules only release with a veto. -/
theorem decisionRule_answer {family : Certificate}
    (h : (decisionRule family).step c = .answer o) : o.decisionCode.isRelease = false := by
  cases family with
  | chedA => exact verdictStep_answer h
  | chedP => exact verdictStep_answer h
  | chedPP => exact statusStep_answer h
  | chedD => exact verdictStep_answer h

theorem release_mem {release? : Notification.Verdict → Option DecisionCode}
    (hr : release? ∈ [chedARelease?, chedPRelease?, chedDRelease?])
    {verdict : Notification.Verdict} {code : DecisionCode} (h : release? verdict = some code) :
    code ∈ [.c03, .c05, .c06, .e03] := by
  simp only [List.mem_cons, List.not_mem_nil, or_false] at hr
  rcases hr with rfl | rfl | rfl <;> cases verdict <;> cases h <;> decide

theorem isAccepted_of_verdictStep {release? : Notification.Verdict → Option DecisionCode}
    (hr : release? ∈ [chedARelease?, chedPRelease?, chedDRelease?])
    (hn : c.notification = some n) (hne : n.certificate ≠ .chedPP)
    (h : verdictStep release? c = .unlessVetoed o) :
    n.IsAccepted ∧ o.decisionCode ∈ [.c03, .c05, .c06, .e03] := by
  obtain ⟨verdict, hv, hacc, hcode⟩ := verdictStep_unlessVetoed h
  simp only [Case.verdict?, Case.partTwo?, hn, Option.bind_some] at hv
  refine ⟨?_, release_mem hr hcode⟩
  rw [Notification.IsAccepted, if_neg hne]
  exact ⟨verdict, hv, hacc⟩

/-- The decision rules release what the border control post accepted. -/
theorem decisionRule_unlessVetoed (hn : c.notification = some n)
    (h : (decisionRule n.certificate).step c = .unlessVetoed o) :
    n.IsAccepted ∧ o.decisionCode ∈ [.c03, .c05, .c06, .e03] := by
  cases hc : n.certificate with
  | chedA =>
    rw [hc] at h
    exact isAccepted_of_verdictStep List.mem_cons_self hn (by simp [hc]) h
  | chedP =>
    rw [hc] at h
    exact isAccepted_of_verdictStep (.tail _ List.mem_cons_self) hn (by simp [hc]) h
  | chedD =>
    rw [hc] at h
    exact isAccepted_of_verdictStep (.tail _ (.tail _ List.mem_cons_self)) hn (by simp [hc]) h
  | chedPP =>
    rw [hc] at h
    obtain ⟨hstatus, hcode⟩ := statusStep_unlessVetoed h
    simp only [Case.status?, hn, Option.map_some, Option.some.injEq] at hstatus
    rw [Notification.IsAccepted, if_pos hc, hcode]
    exact ⟨hstatus, by decide⟩

/-- The fishing control releases what its finding grants. -/
theorem fishingOutcome_of_release {control? : Option Notification.FishingControl}
    (h : (fishingOutcome control?).decisionCode.isRelease = true) :
    (fishingOutcome control?).decisionCode ∈ [.c07, .c08] ∧
      ∃ control, control? = some control ∧
        control.Grants (fishingOutcome control?).decisionCode := by
  rcases control? with _ | ⟨required, finding⟩
  · cases h
  cases required with
  | false => exact ⟨List.mem_cons_of_mem _ List.mem_cons_self, _, rfl, Or.inl rfl⟩
  | true =>
    rcases finding with _ | finding
    · cases h
    cases finding with
    | compliant => exact ⟨List.mem_cons_self, _, rfl, rfl, rfl⟩
    | notCompliant => cases h
    | notApplicable => exact ⟨List.mem_cons_of_mem _ List.mem_cons_self, _, rfl, Or.inr rfl⟩

end Deciding

/-! ## The guards in front -/

section Guards

variable {c : Case} {n : Notification}

theorem certificate_of_defer (hn : c.notification = some n)
    (horphan : Rule.orphanCheckCode.step c = .defer)
    (hwrong : Rule.wrongCertificate.step c = .defer) : c.certificate = some n.certificate := by
  cases hc : c.certificate with
  | none => simp [Rule.step, hc] at horphan
  | some family =>
    simp only [Rule.step, hn, hc] at hwrong
    by_cases hne : n.certificate = family
    · rw [hne]
    · rw [if_pos hne] at hwrong
      cases hwrong

/-- What is neither withdrawn nor pending has a standing status. -/
theorem status_notMem {status : Notification.Status} (hw : withdrawal? status = none)
    (hp : status.isPending = false) : status ∉ [.draft, .submitted, .inProgress, .cancelled,
      .deleted, .replaced, .splitConsignment] := by
  cases status <;> simp_all [withdrawal?, Notification.Status.isPending]

theorem withdrawal_of_defer (hn : c.notification = some n)
    (h : Rule.notificationStatus.step c = .defer) : withdrawal? n.status = none := by
  simp only [Rule.step, Case.status?, hn, Option.map_some, Option.bind_some] at h
  split at h
  · cases h
  · assumption

theorem missingDataStep_eq_defer (h : missingDataStep n = .defer) :
    n.status.isPending = false ∧ n.partTwo.isSome = true := by
  unfold missingDataStep at h
  split at h
  · cases h
  split at h
  · cases h
  · next hp hnone => exact ⟨by simpa using hp, by simpa [Option.isSome_iff_ne_none] using hnone⟩

theorem isTerminal_of_defer (h : Rule.terminalDeclaration.step c = .defer) :
    c.declaration.isTerminal = false := by
  by_contra hne
  simp [Rule.step, hne] at h

theorem exists_notification_of_defer (h : Rule.unlinkedNotification.step c = .defer) :
    ∃ n, c.notification = some n := by
  cases hn : c.notification with
  | none => simp [Rule.step, hn] at h
  | some n => exact ⟨n, rfl⟩

/-- Where the guards in front defer, a notification of the check's family has a standing
status and a part two, and the declaration is not terminal. -/
theorem standing_of_defer {family : Certificate}
    (h : ∀ r ∈ structural ++ intake family, r.step c = .defer) :
    ∃ n, c.notification = some n ∧ c.certificate = some n.certificate ∧
      n.status ∉ [.draft, .submitted, .inProgress, .cancelled, .deleted, .replaced,
        .splitConsignment] ∧
      n.partTwo.isSome = true ∧ c.declaration.isTerminal = false := by
  have hstructural : ∀ r ∈ structural, r.step c = .defer := fun r hr =>
    h r (List.mem_append_left _ hr)
  have hmissing : Rule.missingSupportingData.step c = .defer :=
    h _ (List.mem_append_right _ (by cases family <;> decide))
  obtain ⟨n, hn⟩ := exists_notification_of_defer (hstructural _ (by decide))
  simp only [Rule.step, hn] at hmissing
  obtain ⟨hpending, hpart⟩ := missingDataStep_eq_defer hmissing
  have hwithdrawn := withdrawal_of_defer hn (hstructural .notificationStatus (by decide))
  exact ⟨n, hn, certificate_of_defer hn (hstructural _ (by decide)) (hstructural _ (by decide)),
    status_notMem hwithdrawn hpending, hpart,
    isTerminal_of_defer (hstructural .terminalDeclaration (by decide))⟩

end Guards

/-! ## Releases -/

theorem notMem_fishing {code : DecisionCode} (h : code ∈ [.c03, .c05, .c06, .e03]) :
    code ∉ [.c07, .c08] := by
  cases code <;> revert h <;> decide

/-- Behind the guards in front, the fishing control releases, or the decision rule does and
the commodity rules defer. -/
theorem resolve_of_release {s : RuleSettings} {c : Case} {family : Certificate} {o : Outcome}
    (ho : (fishingRules family ++ decisionRule family :: commodityRules s).resolve c = o)
    (h : o.decisionCode.isRelease = true) :
    (Text.sameLetters c.checkCode fishingCheck = true ∧
      fishingOutcome (c.partTwo?.bind (·.fishing)) = o) ∨
    ((decisionRule family).step c = .unlessVetoed o ∧
      ∀ r ∈ commodityRules s, r.step c = .defer) := by
  have decided (hd : Chain.resolve (decisionRule family :: commodityRules s) c = o) :
      (decisionRule family).step c = .unlessVetoed o ∧
        ∀ r ∈ commodityRules s, r.step c = .defer := by
    rw [← hd] at h ⊢
    exact Chain.resolve_cons_of_release (fun _ => decisionRule_answer)
      (isGuard_commodityRules s) h
  cases family with
  | chedA => exact Or.inr (decided ho)
  | chedD => exact Or.inr (decided ho)
  | chedPP => exact Or.inr (decided ho)
  | chedP =>
    by_cases hfishing : Text.sameLetters c.checkCode fishingCheck = true
    · have hstep : Rule.fishingControl.step c =
          .answer (fishingOutcome (c.partTwo?.bind (·.fishing))) := by
        rw [Rule.step, if_pos hfishing]
      exact Or.inl ⟨hfishing, (Chain.resolve_of_answer hstep).symm.trans ho⟩
    · have hstep : Rule.fishingControl.step c = .defer := by rw [Rule.step, if_neg hfishing]
      exact Or.inr (decided ((Chain.resolve_of_defer hstep).symm.trans ho))

/-- A release is made to a case with a notification that supports it. -/
theorem Case.supports_of_release {s : RuleSettings} {c : Case}
    (h : ((standardChain s c.certificate).resolve c).decisionCode.isRelease = true) :
    ∃ n, c.notification = some n ∧
      c.Supports s n ((standardChain s c.certificate).resolve c).decisionCode := by
  cases hc : c.certificate with
  | none =>
    rw [hc, standardChain, Chain.not_isRelease_of_guards isGuard_structural] at h
    cases h
  | some family =>
    rw [hc, standardChain_eq] at h
    rw [standardChain_eq]
    obtain ⟨hfront, heq⟩ := Chain.resolve_append_of_release (isGuard_front family) h
    obtain ⟨n, hn, hfamily, hstatus, hpart, hopen⟩ := standing_of_defer hfront
    refine ⟨n, hn, ?_⟩
    rw [heq] at h ⊢
    generalize ho : (fishingRules family ++ decisionRule family :: commodityRules s).resolve c = o
      at h ⊢
    rcases resolve_of_release ho h with ⟨hcheck, rfl⟩ | ⟨hstep, hcommodity⟩
    · rw [Case.partTwo?, hn, Option.bind_some] at h ⊢
      obtain ⟨hkind, hgrants⟩ := fishingOutcome_of_release h
      exact ⟨hfamily, hstatus, hpart, hopen, Or.inr hkind,
        fun hother => absurd hkind (notMem_fishing hother), fun _ => ⟨hcheck, hgrants⟩⟩
    · have hsame : family = n.certificate := Option.some.inj (hc.symm.trans hfamily)
      obtain ⟨haccepted, hkind⟩ := decisionRule_unlessVetoed hn (hsame ▸ hstep)
      refine ⟨hfamily, hstatus, hpart, hopen, Or.inl hkind, fun _ => ⟨haccepted,
        hcommodity _ List.mem_cons_self, fun hw => hcommodity _ ?_⟩,
        fun hother => absurd hother (notMem_fishing hkind)⟩
      simp [commodityRules, hw]

/-- The result answers a check of the commodity from a document on it and a notification
that stand for one certificate, and what the notification says supports it. -/
structure Result.RestsOn (r : Result) (s : RuleSettings) (d : Declaration)
    (commodity : Commodity) (document : Document) (n : Notification) : Prop where
  mem_commodities : commodity ∈ d.commodities
  itemNumber : r.itemNumber = commodity.itemNumber
  mem_checks : ⟨r.checkCode⟩ ∈ commodity.checks
  mem_documents : document ∈ commodity.documents
  documentReference : r.documentReference = some document.reference
  documentCode : r.documentCode = some document.code
  qualifies : document.qualifiesFor r.checkCode = true
  notificationReference : r.notificationReference = some n.reference
  identifier : ∃ i, document.identifier? = some i ∧ n.identifier? = some i
  supports : Case.Supports s ⟨d, commodity, r.checkCode, certificateForCheck? r.checkCode,
    some n, some document⟩ n r.decisionCode

theorem supports_of_findingFor {s : RuleSettings} {d : Declaration} {commodity : Commodity}
    {checkCode : String} {p : Pairing} {f : Finding}
    (hf : findingFor (standardChain s (certificateForCheck? checkCode)) d commodity checkCode p = f)
    (h : f.decisionCode.isRelease = true) :
    ∃ n, p.notification = some n ∧ Case.Supports s ⟨d, commodity, checkCode,
      certificateForCheck? checkCode, some n, p.document⟩ n f.decisionCode := by
  generalize hc : certificateForCheck? checkCode = family at hf ⊢
  rw [findingFor, hc] at hf
  subst hf
  obtain ⟨n, hn, hsupports⟩ := Case.supports_of_release
    (c := ⟨d, commodity, checkCode, family, p.notification, p.document⟩) h
  dsimp only at hn
  rw [hn] at hsupports ⊢
  exact ⟨n, rfl, hsupports⟩

theorem Finding.restsOn_of_release {s : RuleSettings} {d : Declaration}
    {notifications : List Notification} {commodity : Commodity}
    (hcommodity : commodity ∈ d.commodities) {check : Check} (hcheck : check ∈ commodity.checks)
    {f : Finding} (hf : f ∈ check.standardFindings s d notifications commodity)
    (h : f.decisionCode.isRelease = true) :
    ∃ document, ∃ n ∈ notifications, f.toResult.RestsOn s d commodity document n := by
  obtain ⟨p, hp, bare, reasons, hfor, rfl⟩ := Check.mem_standardFindings hf
  obtain ⟨n, hn, hsupports⟩ := supports_of_findingFor hfor h
  obtain ⟨hmem, document, hdocument, hpair, hq, hi⟩ := mem_pairings_of_notification hp hn
  have hcode : bare.checkCode = check.code := (congrArg Finding.checkCode hfor).symm
  have hdocumentReference : bare.documentReference = p.document.map (·.reference) :=
    (congrArg Finding.documentReference hfor).symm
  have hdocumentCode : bare.documentCode = p.document.map (·.code) :=
    (congrArg Finding.documentCode hfor).symm
  have hnotification : bare.notificationReference = p.notification.map (·.reference) :=
    (congrArg Finding.notificationReference hfor).symm
  rw [hpair] at hdocumentReference hdocumentCode hsupports
  rw [hn] at hnotification
  rw [← hcode] at hq hsupports
  exact ⟨document, n, hmem, hcommodity, (congrArg Finding.itemNumber hfor).symm,
    hcode ▸ hcheck, hdocument, hdocumentReference, hdocumentCode, hq, hnotification, hi, hsupports⟩

/-- An answer that is a release is the code of a result, and all results of the check are
releases. -/
theorem releases_of_mem_foldItems {findings : List Finding} {item : ItemDecision}
    (hitem : item ∈ foldItems findings) {check : CheckDecision} (hcheck : check ∈ item.checks)
    (h : check.decisionCode.isRelease = true) :
    (∃ f ∈ findings, f.itemNumber = item.itemNumber ∧ f.checkCode = check.checkCode ∧
      f.decisionCode = check.decisionCode) ∧
    ∀ f ∈ findings, f.itemNumber = item.itemNumber → f.checkCode = check.checkCode →
      f.decisionCode.isRelease = true := by
  obtain ⟨hfold, hne⟩ := eq_foldCheck_of_mem hitem hcheck
  have hcode : check.decisionCode =
      mostSevere (Finding.codesFor item.itemNumber check.checkCode findings) :=
    congrArg CheckDecision.decisionCode hfold
  constructor
  · have hmem := mostSevere_mem (mt Finding.codesFor_eq_nil_iff.mp hne)
    obtain ⟨f, hf, hfcode⟩ := List.mem_map.mp hmem
    obtain ⟨hf, hn, hc⟩ := Finding.mem_group.mp hf
    exact ⟨f, hf, hn, hc, hfcode.trans hcode.symm⟩
  · intro f hf hn hc
    have hle := severity_le_mostSevere (Finding.mem_codesFor hf hn hc)
    rw [DecisionCode.isRelease_iff] at h ⊢
    exact hle.trans (hcode ▸ h)

/-- Under the standard rules every declaration is decided. Every result that is a release
rests on a document and a notification, and an item has a release only where the results
of the check are all releases. -/
theorem Declaration.release_sound (d : Declaration) (s : RuleSettings) (now : Timestamp)
    (notifications : List Notification) :
    ∃ decision results, d.derive (.standard s) now notifications = .ok decision ∧
      decision.results = some results ∧
      (∀ r ∈ results, r.decisionCode.isRelease = true →
        ∃ commodity document, ∃ n ∈ notifications, r.RestsOn s d commodity document n) ∧
      ∀ item ∈ decision.items, ∀ check ∈ item.checks, check.decisionCode.isRelease = true →
        (∃ r ∈ results, r.itemNumber = item.itemNumber ∧ r.checkCode = check.checkCode ∧
          r.decisionCode = check.decisionCode) ∧
        ∀ r ∈ results, r.itemNumber = item.itemNumber → r.checkCode = check.checkCode →
          r.decisionCode.isRelease = true := by
  refine ⟨_, _, d.derive_standard s now notifications, rfl, ?_, ?_⟩
  · intro r hr hrelease
    obtain ⟨f, hf, rfl⟩ := List.mem_map.mp hr
    obtain ⟨commodity, hcommodity, hf⟩ := List.mem_flatMap.mp hf
    obtain ⟨check, hcheck, hf⟩ := List.mem_flatMap.mp hf
    obtain ⟨document, n, hn, hrests⟩ := Finding.restsOn_of_release hcommodity hcheck hf hrelease
    exact ⟨commodity, document, n, hn, hrests⟩
  · intro item hitem check hcheck hrelease
    obtain ⟨⟨f, hf, hfold⟩, hall⟩ := releases_of_mem_foldItems hitem hcheck hrelease
    refine ⟨⟨f.toResult, List.mem_map_of_mem hf, hfold⟩, fun r hr => ?_⟩
    obtain ⟨f, hf, rfl⟩ := List.mem_map.mp hr
    exact hall f hf

end BorderControl
