import BorderControl.Linking
import BorderControl.Proofs.Findings
import BorderControl.Proofs.Sorting

/-!
# Links in reports and in findings

A report looks up one notification for each group of documents (`linkDocuments`); a check
has a finding for every notification of a document. They walk through the documents in
different orders and drop repeated ones in different ways, but both ask for the
certificate that a document names, and for nothing else.

A report names the first notification of that certificate (`mem_linked`, `mem_unlinked`).
The findings on a document that counts for a check are linked to all notifications of the
certificate, in order (`references_findingsOn`). So the report and the findings of every
check agree (`Check.findings_agree_with_report`).
-/

namespace BorderControl

/-! ## Reports -/

section Reports

variable {notifications : List Notification} {declarations : List Declaration}
  {g : DocumentGroup} {i : Identifier}

/-- An item of the declarations has the documents of the group, which name the
certificate. -/
def DocumentGroup.Names (g : DocumentGroup) (declarations : List Declaration)
    (i : Identifier) : Prop :=
  ∃ d ∈ declarations, ∃ c ∈ d.commodities, ∃ document ∈ c.documents,
    document.identifier? = some i ∧ g = ⟨d.mrn, c.itemNumber, document⟩

theorem Commodity.mem_groups {c : Commodity} {mrn : String} :
    (g, i) ∈ c.groups mrn ↔
      ∃ d ∈ c.documents, d.identifier? = some i ∧ g = ⟨mrn, c.itemNumber, d⟩ := by
  simp only [Commodity.groups, List.mem_filterMap, mem_distinct, Option.map_eq_some_iff,
    Prod.mk.injEq]
  constructor
  · rintro ⟨d, hd, j, hj, rfl, rfl⟩
    exact ⟨d, hd, hj, rfl⟩
  · rintro ⟨d, hd, hi, rfl⟩
    exact ⟨d, hd, i, hi, rfl, rfl⟩

theorem mem_flatMap_groups :
    (g, i) ∈ declarations.flatMap (fun d => d.commodities.flatMap (·.groups d.mrn)) ↔
      g.Names declarations i := by
  simp only [List.mem_flatMap, Commodity.mem_groups, DocumentGroup.Names]

/-- A linked group has the reference of the first notification of its certificate. -/
theorem mem_linked {reference : String} :
    (g, reference) ∈ (linkDocuments notifications declarations).linked ↔
      ∃ i, g.Names declarations i ∧
        (firstNotification? notifications i).map (·.reference) = some reference := by
  simp only [linkDocuments, List.filterMap_map, List.mem_filterMap, Function.comp_apply,
    Option.map_eq_some_iff, Prod.exists, mem_flatMap_groups, Prod.mk.injEq]
  constructor
  · rintro ⟨g, i, hg, n, hn, rfl, rfl⟩
    exact ⟨i, hg, n, hn, rfl⟩
  · rintro ⟨i, hg, n, hn, rfl⟩
    exact ⟨g, i, hg, n, hn, rfl, rfl⟩

/-- A group is left unlinked where its certificate has no notification. -/
theorem mem_unlinked :
    g ∈ (linkDocuments notifications declarations).unlinked ↔
      ∃ i, g.Names declarations i ∧ firstNotification? notifications i = none := by
  simp only [linkDocuments, List.filterMap_map, List.mem_filterMap, Function.comp_apply,
    Prod.exists, mem_flatMap_groups, Option.ite_none_right_eq_some, Option.isNone_iff_eq_none,
    Option.some.injEq]
  constructor
  · rintro ⟨g, i, hg, hn, rfl⟩
    exact ⟨i, hg, hn⟩
  · rintro ⟨i, hg, hn⟩
    exact ⟨g, i, hg, hn, rfl⟩

theorem names_iff {d : Declaration} {c : Commodity} {document : Document}
    (hd : d ∈ declarations) (hc : c ∈ d.commodities) (hdocument : document ∈ c.documents) :
    DocumentGroup.Names ⟨d.mrn, c.itemNumber, document⟩ declarations i ↔
      document.identifier? = some i := by
  constructor
  · rintro ⟨_, -, _, -, _, -, hi, hg⟩
    obtain ⟨-, -, rfl⟩ := DocumentGroup.mk.inj hg
    exact hi
  · intro hi
    exact ⟨d, hd, c, hc, document, hdocument, hi, rfl⟩

theorem firstNotification?_eq (notifications : List Notification) (i : Identifier) :
    firstNotification? notifications i = (notificationsFor notifications i).head? := by
  rw [firstNotification?, notificationsFor, List.head?_filter]

end Reports

/-! ## Findings on a document -/

/-- The finding is about the document. -/
def Finding.isOn (d : Document) (f : Finding) : Bool :=
  f.documentReference == some d.reference && f.documentCode == some d.code

/-- The findings about a document, in order. -/
def findingsOn (d : Document) (findings : List Finding) : List Finding :=
  findings.filter (·.isOn d)

section Findings

variable {notifications : List Notification} {chain : Chain} {declaration : Declaration}
  {commodity : Commodity} {checkCode : String} {document : Document}

theorem isOn_findingFor (p : Pairing) :
    (findingFor chain declaration commodity checkCode p).isOn document =
      decide (p.document = some document) := by
  have hpair : ∀ d : Document,
      (d.reference = document.reference ∧ d.code = document.code) ↔ d = document := by
    intro d
    cases d
    cases document
    simp [and_comm]
  obtain ⟨n, d⟩ := p
  cases d with
  | none => simp [Finding.isOn, findingFor]
  | some d =>
    rw [Bool.eq_iff_iff]
    simp [Finding.isOn, findingFor, hpair]

/-- Reasons are added to findings one by one. -/
theorem references_findingsOn_explained (findings : List Finding) :
    (findingsOn document (explained commodity findings)).map (·.notificationReference) =
      (findingsOn document findings).map (·.notificationReference) := by
  rw [findingsOn, explained, List.filter_map, List.map_map]
  rfl

theorem pairingsWith_document {d : Document} {p : Pairing}
    (h : p ∈ pairingsWith notifications d) : p.document = some d := by
  rw [pairingsWith] at h
  cases hi : d.identifier? with
  | none => simp [hi] at h
  | some i =>
    rw [hi, Option.elim_some, pairingsOf] at h
    split at h
    · rw [List.mem_singleton.mp h]
    · obtain ⟨n, -, rfl⟩ := List.mem_map.mp h
      rfl

theorem filter_pairingsWith (d : Document) :
    (pairingsWith notifications d).filter (fun p => decide (p.document = some document)) =
      if d = document then pairingsWith notifications document else [] := by
  split
  · next heq =>
    subst heq
    exact List.filter_eq_self.mpr fun p hp => decide_eq_true (pairingsWith_document hp)
  · next hne =>
    refine List.filter_eq_nil_iff.mpr fun p hp => ?_
    simp [pairingsWith_document hp, hne]

theorem flatMap_ite_eq {α β : Type} [DecidableEq α] {a : α} (bs : List β) :
    ∀ {l : List α}, l.Nodup → l.flatMap (fun b => if b = a then bs else []) =
      if a ∈ l then bs else []
  | [], _ => rfl
  | b :: l, hnodup => by
    obtain ⟨hb, hl⟩ := List.nodup_cons.mp hnodup
    have ih := flatMap_ite_eq (a := a) bs hl
    rw [List.flatMap_cons, ih]
    by_cases hba : b = a
    · subst hba
      simp [hb]
    · simp [hba, Ne.symm hba]

/-- Of all pairs, those with a document that counts are the pairs made with it. -/
theorem filter_pairings {documents : List Document}
    (h : document ∈ evidence checkCode documents) :
    (pairings notifications checkCode documents).filter
        (fun p => decide (p.document = some document)) =
      pairingsWith notifications document := by
  have hnodup : (evidence checkCode documents).Nodup := nodup_eraseDups _
  rw [pairings_eq, if_neg (List.ne_nil_of_mem h), List.filter_flatMap]
  simp only [filter_pairingsWith]
  rw [flatMap_ite_eq _ hnodup, if_pos h]

/-- The findings on a document that counts are linked like the pairs with it. -/
theorem references_findingsOn (notifications : List Notification) (chain : Chain)
    (declaration : Declaration) (h : document ∈ evidence checkCode commodity.documents) :
    (findingsOn document (explained commodity
        ((pairings notifications checkCode commodity.documents).map
          (findingFor chain declaration commodity checkCode)))).map (·.notificationReference) =
      (pairingsWith notifications document).map fun p => p.notification.map (·.reference) := by
  have hisOn : Finding.isOn document ∘ findingFor chain declaration commodity checkCode =
      fun p => decide (p.document = some document) := funext isOn_findingFor
  rw [references_findingsOn_explained, findingsOn, List.filter_map, hisOn, filter_pairings h,
    List.map_map]
  rfl

end Findings

/-! ## Agreement -/

/-- On a document that counts for a check, a report and the findings of the check agree:
the report links it to a notification exactly if the first finding on it does, and leaves it
unlinked exactly if there is one finding on it, without a notification. -/
theorem Check.findings_agree_with_report {check : Check} {sets : RuleSets} {chain : Chain}
    (hchain : sets.select (certificateForCheck? check.code) = .ok chain)
    {declarations : List Declaration} {declaration : Declaration}
    (hdeclaration : declaration ∈ declarations) {commodity : Commodity}
    (hcommodity : commodity ∈ declaration.commodities) {document : Document}
    (hdocument : document ∈ commodity.documents)
    (hqualifies : document.qualifiesFor check.code = true)
    (notifications : List Notification) :
    ∃ findings, check.findings sets declaration notifications commodity = .ok findings ∧
      (∀ reference,
        (⟨declaration.mrn, commodity.itemNumber, document⟩, reference) ∈
            (linkDocuments notifications declarations).linked ↔
          ∃ f rest, findingsOn document findings = f :: rest ∧
            f.notificationReference = some reference) ∧
      (⟨declaration.mrn, commodity.itemNumber, document⟩ ∈
          (linkDocuments notifications declarations).unlinked ↔
        ∃ f, findingsOn document findings = [f] ∧ f.notificationReference = none) := by
  obtain ⟨i, hi⟩ := Document.exists_identifier hqualifies
  have hlinks := references_findingsOn notifications chain declaration
    (mem_evidence.mpr ⟨hdocument, hqualifies⟩)
  rw [pairingsWith_of_identifier hi, pairingsOf] at hlinks
  refine ⟨_, by rw [Check.findings_eq, hchain]; rfl, ?_⟩
  generalize findingsOn document _ = found at hlinks
  simp only [mem_linked, mem_unlinked, names_iff hdeclaration hcommodity hdocument, hi,
    Option.some.injEq, exists_eq_left', firstNotification?_eq]
  cases hfor : notificationsFor notifications i with
  | nil =>
    -- no notification of the certificate, and one finding without a link
    simp only [hfor, List.map_cons, List.map_nil, Option.map_none] at hlinks
    obtain ⟨f, rest, rfl, hf, hrest⟩ := List.map_eq_cons_iff.mp hlinks
    obtain rfl := List.map_eq_nil_iff.mp hrest
    simp [hf]
  | cons n others =>
    simp only [hfor, List.map_cons, Option.map_some] at hlinks
    obtain ⟨f, rest, rfl, hf, -⟩ := List.map_eq_cons_iff.mp hlinks
    simp [hf]

/-- Two calves with one document, which is declared twice. -/
def calves : Commodity :=
  ⟨1, some "0102290500", none, none,
    [⟨"C640", "GBCHD2025.1234567"⟩, ⟨"C640", "GBCHD2025.1234567"⟩], [⟨"H221"⟩]⟩

def calvesDeclaration : Declaration := ⟨"25GB0000000000003", some 1, none, [calves], none⟩

/-- Two notifications of one number, the first of another family. -/
def calvesNotifications : List Notification :=
  [⟨"CHEDP.GB.2025.1234567", .chedP, none, .validated, none, [], none⟩,
    ⟨"CHEDA.GB.2025.1234567", .chedA, none, .submitted, none, [], none⟩]

/-- The report and the findings both start from the first of them. -/
theorem calves_linked_alike :
    (⟨calvesDeclaration.mrn, 1, ⟨"C640", "GBCHD2025.1234567"⟩⟩, "CHEDP.GB.2025.1234567") ∈
        (linkDocuments calvesNotifications [calvesDeclaration]).linked ∧
      ∃ findings, (Check.mk "H221").findings (.standard .standard) calvesDeclaration
          calvesNotifications calves = .ok findings ∧
        ∃ f rest, findingsOn ⟨"C640", "GBCHD2025.1234567"⟩ findings = f :: rest ∧
          f.notificationReference = some "CHEDP.GB.2025.1234567" := by
  have hlinked : (⟨calvesDeclaration.mrn, 1, ⟨"C640", "GBCHD2025.1234567"⟩⟩,
      "CHEDP.GB.2025.1234567") ∈
        (linkDocuments calvesNotifications [calvesDeclaration]).linked := by decide +kernel
  have hselect := RuleSets.select_standard .standard (certificateForCheck? (Check.mk "H221").code)
  have hdocument : (⟨"C640", "GBCHD2025.1234567"⟩ : Document) ∈ calves.documents :=
    List.mem_cons_self
  have hqualifies : (⟨"C640", "GBCHD2025.1234567"⟩ : Document).qualifiesFor "H221" = true := by
    decide +kernel
  obtain ⟨findings, hfindings, hagree, -⟩ := Check.findings_agree_with_report hselect
    (List.mem_singleton_self calvesDeclaration) (List.mem_singleton_self calves) hdocument
    hqualifies calvesNotifications
  exact ⟨hlinked, findings, hfindings, (hagree _).mp hlinked⟩

end BorderControl
