import BorderControl.Proofs.Coverage

/-!
# A finding for every pair

The walk through the documents of a commodity keeps what it has seen, looks for notifications
as it goes, and falls back twice: to a pair without a notification, and to one without a
document. Told without the walk, a check is resolved against every document that counts, in the
order in which they first appear, with each of its partners (`Document.partners`), or else
against nothing (`resolvedPairs`).

The findings of a check are one for each of these pairs, in order (`Check.findings_of_pairs`).
A finding of a pair names both papers and gives the outcome of the chain on that pair
(`Finding.IsOf`).
-/

namespace BorderControl

/-- The notifications of the document's certificate, in order, or none at all. -/
def Document.partners (d : Document) (notifications : List Notification) :
    List (Option Notification) :=
  let matching := notifications.filter fun n => n.identifier? == d.identifier?
  if matching = [] then [none] else matching.map some

/-- The pairs of the documents that count, or a pair of nothing. -/
def resolvedPairs (notifications : List Notification) (counted : List Document) : List Pairing :=
  if counted = [] then [⟨none, none⟩]
  else counted.flatMap fun d => (d.partners notifications).map fun n => ⟨n, some d⟩

/-- The finding is of the pair: it is filed under the check, names the two papers, and has the
outcome of the chain on that pair. -/
structure Finding.IsOf (f : Finding) (chain : Chain) (declaration : Declaration)
    (commodity : Commodity) (check : Check) (p : Pairing) : Prop where
  mrn : f.mrn = declaration.mrn
  itemNumber : f.itemNumber = commodity.itemNumber
  checkCode : f.checkCode = check.code
  documentReference : f.documentReference = p.document.map (·.reference)
  documentCode : f.documentCode = p.document.map (·.code)
  notificationReference : f.notificationReference = p.notification.map (·.reference)
  outcome : chain.resolve {
    declaration := declaration
    commodity := commodity
    checkCode := check.code
    certificate := certificateForCheck? check.code
    notification := p.notification
    document := p.document } = ⟨f.decisionCode, f.detailCode⟩

section Pairs

variable {notifications : List Notification} {checkCode : String} {documents : List Document}

theorem pairingsWith_eq_partners {d : Document} (h : d.qualifiesFor checkCode = true) :
    pairingsWith notifications d = (d.partners notifications).map fun n => ⟨n, some d⟩ := by
  obtain ⟨i, hi⟩ := Document.exists_identifier h
  have hfor : notificationsFor notifications i =
      notifications.filter fun n => n.identifier? == d.identifier? := by
    rw [notificationsFor, hi]
  rw [pairingsWith_of_identifier hi, pairingsOf_eq, Document.partners, hfor]
  split
  · rfl
  · rw [List.map_map]
    rfl

/-- The walk finds the pairs of the documents that count. -/
theorem pairings_eq_resolvedPairs :
    pairings notifications checkCode documents =
      resolvedPairs notifications (evidence checkCode documents) := by
  rw [pairings_eq, resolvedPairs]
  split
  · rfl
  · exact List.flatMap_congr fun d hd => pairingsWith_eq_partners (mem_evidence.mp hd).2

end Pairs

section Check

variable {check : Check} {sets : RuleSets} {chain : Chain} {declaration : Declaration}
  {commodity : Commodity}

/-- If the check has a chain, its findings are one for every pair, in order, and there is one at
least. The pairs are those of the documents that count, which are the ones that qualify for the
check, once each. All of these name a certificate. -/
theorem Check.findings_of_pairs
    (hchain : sets.select (certificateForCheck? check.code) = .ok chain)
    (declaration : Declaration) (notifications : List Notification) (commodity : Commodity) :
    ∃ counted findings,
      FirstAppearances (commodity.documents.filter (·.qualifiesFor check.code)) counted ∧
      check.findings sets declaration notifications commodity = .ok findings ∧
      List.Forall₂ (fun p f => f.IsOf chain declaration commodity check p)
        (resolvedPairs notifications counted) findings ∧
      findings ≠ [] ∧
      ∀ d ∈ commodity.documents, d.qualifiesFor check.code = true →
        ∃ i, d.identifier? = some i := by
  refine ⟨_, check.found sets declaration notifications commodity, firstAppearances_eraseDups _,
    findings_of_covered ⟨chain, hchain⟩ _ _ _, ?_, check.found_ne_nil _ _ _ _,
    fun d _ => Document.exists_identifier⟩
  rw [found, explained, RuleSets.rulesFor_of_select hchain, pairings_eq_resolvedPairs,
    List.forall₂_map_right_iff, List.forall₂_map_right_iff]
  exact List.forall₂_same.mpr fun p _ => ⟨rfl, rfl, rfl, rfl, rfl, rfl, rfl⟩

end Check

/-- Goats with one certificate declared twice, one without a number, and one that nobody has
notified. -/
def goats : Commodity :=
  ⟨1, some "0104108000", none, none,
    [⟨"C640", "GBCHD2025.0000022"⟩, ⟨"C640", "GBCHD2025"⟩, ⟨"C640", "GBCHD2025.0000022"⟩,
      ⟨"C640", "GBCHD2025.0000023"⟩], [⟨"H221"⟩]⟩

def goatsDeclaration : Declaration := ⟨"25GB0000000000022", some 1, none, [goats], none⟩

/-- Two notifications of the certificate that is declared twice. -/
def goatsNotifications : List Notification :=
  [⟨"CHEDA.GB.2025.0000022", .chedA, none, .submitted, none, [], none⟩,
    ⟨"CHEDA.GB.2025.0000022V", .chedA, none, .replaced, none, [], none⟩]

/-- The certificate counts once, and is resolved with both notifications; the one that is not
notified is resolved alone. -/
theorem goats_pairs : ∃ chain findings,
    RuleSets.select (.standard .standard) (certificateForCheck? "H221") = .ok chain ∧
    (Check.mk "H221").findings (.standard .standard) goatsDeclaration goatsNotifications goats =
      .ok findings ∧
    findings.map (fun f => (f.documentReference, f.notificationReference)) =
      [(some "GBCHD2025.0000022", some "CHEDA.GB.2025.0000022"),
        (some "GBCHD2025.0000022", some "CHEDA.GB.2025.0000022V"),
        (some "GBCHD2025.0000023", none)] := by
  have hselect := RuleSets.select_standard .standard (certificateForCheck? (Check.mk "H221").code)
  obtain ⟨counted, findings, hcounted, hfindings, hpairs, -⟩ :=
    Check.findings_of_pairs hselect goatsDeclaration goatsNotifications goats
  obtain rfl := hcounted.unique (firstAppearances_eraseDups _)
  refine ⟨_, findings, hselect, hfindings, ?_⟩
  have hreferences : findings.map (fun f => (f.documentReference, f.notificationReference)) =
      (resolvedPairs goatsNotifications
        (goats.documents.filter (·.qualifiesFor "H221")).eraseDups).map fun p =>
          (p.document.map (·.reference), p.notification.map (·.reference)) := by
    rw [← List.forall₂_eq_eq_eq, List.forall₂_map_left_iff, List.forall₂_map_right_iff]
    exact hpairs.flip.imp fun f p hf => Prod.ext hf.documentReference hf.notificationReference
  rw [hreferences]
  decide +kernel

end BorderControl
