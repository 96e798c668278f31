import BorderControl.Decision.Comparison
import BorderControl.Timestamp.Clock
import BorderControl.Proofs.Findings
import BorderControl.Proofs.Folding

/-!
# What a decision that is kept says

A stored decision is kept if its results and the derived ones agree once they are sorted
by document. The codes of a check are then the same up to their order (`codesFor_perm`),
so both decisions list the same checks at the same severities.

The code that counts is the last of highest severity in the order of derivation, which
need not be the order of documents. The order matters only where different documents
dispute the check (`Disputed`). Without a dispute both orders end on one code
(`mostSevere_sortBy`), and both decisions give the check that code
(`mostSevere_codesFor_eq`).
-/

namespace BorderControl

/-! ## The order of documents -/

theorem optionLe_total : ∀ a b : Option String, optionLe a b = true ∨ optionLe b a = true
  | none, _ => Or.inl (by simp [optionLe])
  | some _, none => Or.inr rfl
  | some a, some b => by simpa [optionLe] using String.le_total a b

theorem optionLe_trans : ∀ {a b c : Option String}, optionLe a b = true → optionLe b c = true →
    optionLe a c = true
  | none, _, _, _, _ => by simp [optionLe]
  | some _, none, _, h, _ => by cases h
  | some _, some _, none, _, h => by cases h
  | some _, some _, some _, h₁, h₂ => by
    simp only [optionLe, decide_eq_true_eq] at h₁ h₂ ⊢
    exact String.le_trans h₁ h₂

theorem optionLe_antisymm : ∀ {a b : Option String}, optionLe a b = true → optionLe b a = true →
    a = b
  | none, none, _, _ => rfl
  | none, some _, _, h => by cases h
  | some _, none, h, _ => by cases h
  | some _, some _, h₁, h₂ => by
    simp only [optionLe, decide_eq_true_eq] at h₁ h₂
    rw [String.le_antisymm h₁ h₂]

namespace Result

theorem documentLe_of_eq {a b : Result} (h : a.documentReference = b.documentReference) :
    a.documentLe b = optionLe a.documentCode b.documentCode := by
  rw [documentLe, if_pos h]

theorem documentLe_of_ne {a b : Result} (h : a.documentReference ≠ b.documentReference) :
    a.documentLe b = optionLe a.documentReference b.documentReference := by
  rw [documentLe, if_neg h]

theorem documentLe_trans {a b c : Result} (hab : a.documentLe b = true)
    (hbc : b.documentLe c = true) : a.documentLe c = true := by
  by_cases h₁ : a.documentReference = b.documentReference
  · rw [documentLe_of_eq h₁] at hab
    by_cases h₂ : b.documentReference = c.documentReference
    · rw [documentLe_of_eq h₂] at hbc
      rw [documentLe_of_eq (h₁.trans h₂)]
      exact optionLe_trans hab hbc
    · rw [documentLe_of_ne h₂] at hbc
      rw [documentLe_of_ne (h₁ ▸ h₂), h₁]
      exact hbc
  · rw [documentLe_of_ne h₁] at hab
    by_cases h₂ : b.documentReference = c.documentReference
    · rw [documentLe_of_ne (h₂ ▸ h₁), ← h₂]
      exact hab
    · rw [documentLe_of_ne h₂] at hbc
      have h₃ : a.documentReference ≠ c.documentReference := fun h₃ =>
        h₁ (optionLe_antisymm hab (h₃ ▸ hbc))
      rw [documentLe_of_ne h₃]
      exact optionLe_trans hab hbc

theorem isRanking_documentLe : IsRanking documentLe where
  total a b := by
    by_cases h : a.documentReference = b.documentReference
    · rw [documentLe_of_eq h, documentLe_of_eq h.symm]
      exact optionLe_total _ _
    · rw [documentLe_of_ne h, documentLe_of_ne (Ne.symm h)]
      exact optionLe_total _ _
  trans := documentLe_trans

/-- The document of a result. -/
def document (r : Result) : Option String × Option String :=
  (r.documentReference, r.documentCode)

theorem documentLe_of_document_eq {a b : Result} (h : a.document = b.document) :
    a.documentLe b = true := by
  obtain ⟨href, hcode⟩ := Prod.mk.inj h
  rw [documentLe_of_eq href, hcode]
  exact (optionLe_total _ _).elim id id

end Result

/-! ## Disputes -/

/-- The results that share the highest severity. -/
def topResults (results : List Result) : List Result :=
  results.filter fun r => r.decisionCode.severity ==
    (mostSevere (results.map (·.decisionCode))).severity

/-- Results of different documents that share the highest severity have different codes. -/
def Disputed (results : List Result) : Prop :=
  ∃ a ∈ topResults results, ∃ b ∈ topResults results,
    a.document ≠ b.document ∧ a.decisionCode ≠ b.decisionCode

theorem map_topResults (results : List Result) :
    (topResults results).map (·.decisionCode) =
      ofTopSeverity (results.map (·.decisionCode)) := by
  rw [ofTopSeverity, List.filter_map]
  rfl

theorem topResults_sortBy (results : List Result) :
    topResults (sortBy Result.documentLe results) =
      sortBy Result.documentLe (topResults results) := by
  have hperm := (perm_sortBy Result.documentLe results).map (·.decisionCode)
  rw [topResults, severity_mostSevere_of_perm hperm, filter_sortBy Result.isRanking_documentLe]
  rfl

/-- If results with different codes are of one document, all results are, or all have one
code. -/
theorem document_eq_or_code_eq {results : List Result}
    (h : ∀ a ∈ results, ∀ b ∈ results, a.decisionCode ≠ b.decisionCode →
      a.document = b.document) :
    (∀ a ∈ results, ∀ b ∈ results, a.document = b.document) ∨
      ∀ a ∈ results, ∀ b ∈ results, a.decisionCode = b.decisionCode := by
  by_cases hcode : ∀ a ∈ results, ∀ b ∈ results, a.decisionCode = b.decisionCode
  · exact Or.inr hcode
  left
  push Not at hcode
  obtain ⟨a, ha, b, hb, hab⟩ := hcode
  -- every result differs in code from `a` or from `b`, and those two share a document
  have key : ∀ c ∈ results, c.document = a.document := by
    intro c hc
    by_cases hca : c.decisionCode = a.decisionCode
    · exact (h c hc b hb (hca ▸ hab)).trans (h a ha b hb hab).symm
    · exact h c hc a ha hca
  exact fun c hc c' hc' => (key c hc).trans (key c' hc').symm

theorem map_decisionCode_sortBy {results : List Result}
    (h : ∀ a ∈ results, ∀ b ∈ results, a.decisionCode ≠ b.decisionCode →
      a.document = b.document) :
    (sortBy Result.documentLe results).map (·.decisionCode) =
      results.map (·.decisionCode) := by
  rcases document_eq_or_code_eq h with hdocument | hcode
  · rw [sortBy_of_pairwise (List.pairwise_of_forall_mem_list fun a ha b hb =>
      Result.documentLe_of_document_eq (hdocument a ha b hb))]
  · cases results with
    | nil => rfl
    | cons a rest =>
      have hconst : (a :: rest).map (·.decisionCode) =
          List.replicate (a :: rest).length a.decisionCode := by
        refine List.eq_replicate_iff.mpr ⟨List.length_map _, fun c hc => ?_⟩
        obtain ⟨b, hb, rfl⟩ := List.mem_map.mp hc
        exact hcode b hb a List.mem_cons_self
      have hperm := (perm_sortBy Result.documentLe (a :: rest)).map (·.decisionCode)
      rw [hconst] at hperm ⊢
      exact List.perm_replicate.mp hperm

/-- Without a dispute, sorting by document does not change the code that counts. -/
theorem mostSevere_sortBy {results : List Result} (h : ¬ Disputed results) :
    mostSevere ((sortBy Result.documentLe results).map (·.decisionCode)) =
      mostSevere (results.map (·.decisionCode)) := by
  have hperm := (perm_sortBy Result.documentLe results).map (·.decisionCode)
  by_cases hne : results.map (·.decisionCode) = []
  · rw [hne] at hperm ⊢
    rw [hperm.eq_nil]
  have hsorted : (sortBy Result.documentLe results).map (·.decisionCode) ≠ [] :=
    fun hnil => hne (hnil ▸ hperm).nil_eq.symm
  have htop : ofTopSeverity ((sortBy Result.documentLe results).map (·.decisionCode)) =
      ofTopSeverity (results.map (·.decisionCode)) := by
    rw [← map_topResults, ← map_topResults, topResults_sortBy]
    refine map_decisionCode_sortBy fun a ha b hb hcode => ?_
    by_contra hdocument
    exact h ⟨a, ha, b, hb, hdocument, hcode⟩
  have hlast := getLast?_ofTopSeverity hsorted
  rw [htop, getLast?_ofTopSeverity hne] at hlast
  exact (Option.some.inj hlast).symm

/-! ## Results that agree -/

/-- The results for one check code of one item number. -/
def resultsFor (n : UInt32) (checkCode : String) (results : List Result) : List Result :=
  results.filter fun r => r.itemNumber == n && r.checkCode == checkCode

section Agree

variable {n : UInt32} {checkCode : String}

theorem map_resultsFor (findings : List Finding) :
    (resultsFor n checkCode (findings.map Finding.toResult)).map (·.decisionCode) =
      Finding.codesFor n checkCode findings := by
  rw [resultsFor, List.filter_map, List.map_map, Finding.codesFor, Finding.group,
    List.filter_filter]
  refine congrArg (List.map _) (List.filter_congr fun f _ => ?_)
  exact Bool.and_comm _ _

theorem pairwiseAgree_iff {α : Type} {r : α → α → Bool} :
    ∀ {as bs : List α}, pairwiseAgree r as bs = true ↔ List.Forall₂ (fun a b => r a b = true) as bs
  | [], [] => by simp [pairwiseAgree]
  | [], _ :: _ => by simp [pairwiseAgree]
  | _ :: _, [] => by simp [pairwiseAgree]
  | a :: as, b :: bs => by
    rw [pairwiseAgree, Bool.and_eq_true, pairwiseAgree_iff, List.forall₂_cons]

/-- Results that agree are the same in item number, check code and decision code. -/
theorem Result.eq_of_agrees {a b : Result} (h : a.agrees b = true) :
    a.itemNumber = b.itemNumber ∧ a.checkCode = b.checkCode ∧
      a.decisionCode = b.decisionCode := by
  simp only [agrees, Bool.and_eq_true, beq_iff_eq] at h
  obtain ⟨⟨⟨⟨⟨⟨hitem, -⟩, -⟩, hcheck⟩, hcode⟩, -⟩, -⟩ := h
  exact ⟨hitem, hcheck, hcode⟩

/-- Where results agree once sorted, so do the codes for each check. -/
theorem map_sortBy_resultsFor {results results' : List Result}
    (h : resultsMatch results results' = true) :
    (sortBy Result.documentLe (resultsFor n checkCode results)).map (·.decisionCode) =
      (sortBy Result.documentLe (resultsFor n checkCode results')).map (·.decisionCode) := by
  have hkept : List.Forall₂ (fun a b => Result.agrees a b = true)
      (sortBy Result.documentLe (resultsFor n checkCode results))
      (sortBy Result.documentLe (resultsFor n checkCode results')) := by
    rw [resultsFor, resultsFor, ← filter_sortBy Result.isRanking_documentLe,
      ← filter_sortBy Result.isRanking_documentLe]
    refine List.rel_filter (fun a b hab => ?_) (pairwiseAgree_iff.mp h)
    obtain ⟨hitem, hcheck, -⟩ := Result.eq_of_agrees hab
    simp only [hitem, hcheck]
  exact map_eq_map_iff_forall₂.mpr (hkept.imp fun a b hab => (Result.eq_of_agrees hab).2.2)

/-- Findings whose results agree give every check the same codes, up to their order. -/
theorem codesFor_perm {findings findings' : List Finding}
    (h : resultsMatch (findings.map Finding.toResult) (findings'.map Finding.toResult) = true) :
    (Finding.codesFor n checkCode findings).Perm (Finding.codesFor n checkCode findings') := by
  rw [← map_resultsFor, ← map_resultsFor]
  have hleft := (perm_sortBy Result.documentLe
    (resultsFor n checkCode (findings.map Finding.toResult))).map (·.decisionCode)
  have hright := (perm_sortBy Result.documentLe
    (resultsFor n checkCode (findings'.map Finding.toResult))).map (·.decisionCode)
  exact hleft.symm.trans (map_sortBy_resultsFor h ▸ hright)

theorem mostSevere_codesFor_eq {findings findings' : List Finding}
    (h : resultsMatch (findings.map Finding.toResult) (findings'.map Finding.toResult) = true)
    (hd : ¬ Disputed (resultsFor n checkCode (findings.map Finding.toResult)))
    (hd' : ¬ Disputed (resultsFor n checkCode (findings'.map Finding.toResult))) :
    mostSevere (Finding.codesFor n checkCode findings) =
      mostSevere (Finding.codesFor n checkCode findings') := by
  rw [← map_resultsFor, ← map_resultsFor, ← mostSevere_sortBy hd, map_sortBy_resultsFor h,
    mostSevere_sortBy hd']

end Agree

/-! ## Items that agree -/

/-- Different documents dispute the check. -/
def Decision.IsDisputed (d : Decision) (n : UInt32) (checkCode : String) : Prop :=
  Disputed (resultsFor n checkCode (d.results.getD []))

/-- Items with the same numbers, check codes and decision codes exist in each other. -/
theorem itemListsExist_of_map_outline {a b : List ItemDecision}
    (h : a.map (·.outline id) = b.map (·.outline id)) : itemListsExist a b = true := by
  refine pairwiseAgree_iff.mpr ((forall₂_sortBy (fun hab hab' => ?_)
    (map_eq_map_iff_forall₂.mp h)).imp fun x y hxy => ?_)
  · rw [(Prod.mk.inj hab).1, (Prod.mk.inj hab').1]
  · obtain ⟨hnumber, hchecks⟩ := Prod.mk.inj hxy
    rw [ItemDecision.agrees, hnumber, beq_self_eq_true, Bool.true_and, beq_iff_eq]
    exact congrArg (sortBy _) hchecks

section Kept

variable {d d' : Declaration} {notifications notifications' : List Notification}
  {sets : RuleSets} {now now' : Timestamp} {prior derived : Decision}

/-- If a decision is kept because its results agree with the derived ones, both list the
same checks of the same items at the same severities. A check has one code in both unless
different documents dispute it, and without disputes the items exist in each other. -/
theorem Decision.items_agree_of_results_agree (hprior : d.derive sets now notifications = .ok prior)
    (hderived : d'.derive sets now' notifications' = .ok derived)
    (hsame : optionsAgree resultsMatch prior.results derived.results = true) :
    prior.items.map (·.outline (·.severity)) = derived.items.map (·.outline (·.severity)) ∧
      (∀ n checkCode, ¬ prior.IsDisputed n checkCode → ¬ derived.IsDisputed n checkCode →
        prior.codeFor? n checkCode = derived.codeFor? n checkCode) ∧
      ((∀ n checkCode, ¬ prior.IsDisputed n checkCode ∧ ¬ derived.IsDisputed n checkCode) →
        itemsExist (some prior.items) (some derived.items) = true) := by
  obtain ⟨findings, -, rfl⟩ := Declaration.derive_eq_ok_iff.mp hprior
  obtain ⟨findings', -, rfl⟩ := Declaration.derive_eq_ok_iff.mp hderived
  have hresults : resultsMatch (findings.map Finding.toResult)
      (findings'.map Finding.toResult) = true := hsame
  have hnil : ∀ n code, Finding.group n code findings = [] ↔
      Finding.group n code findings' = [] := by
    intro n code
    rw [← Finding.codesFor_eq_nil_iff, ← Finding.codesFor_eq_nil_iff]
    exact eq_nil_iff_of_perm (codesFor_perm hresults)
  refine ⟨?_, fun n code hd hd' => ?_, fun hd => ?_⟩
  · exact map_outline_foldItems hnil fun n code =>
      severity_mostSevere_of_perm (codesFor_perm hresults)
  · simp only [Decision.codeFor?_build, hnil, mostSevere_codesFor_eq hresults hd hd']
  · exact itemListsExist_of_map_outline (map_outline_foldItems hnil fun n code =>
      mostSevere_codesFor_eq hresults (hd n code).1 (hd n code).2)

end Kept

/-- A notification that live animals are refused. -/
def refused (number : String) (action : Notification.RefusalAction) : Notification where
  reference := "CHEDA.GB.2025." ++ number
  certificate := .chedA
  version := none
  status := .validated
  partTwo := some ⟨some .nonAcceptable, some action, none, none⟩
  lines := []
  updated := none

def refusals : List Notification := [refused "0000001" .reexport, refused "0000002" .destruction]

/-- Live animals with two certificates, declared in some order. -/
def herd (documents : List Document) : Declaration where
  mrn := "25GB0000000000001"
  version := some 1
  finalisation := none
  commodities := [⟨1, none, none, none, documents, [⟨"H221"⟩]⟩]
  decision := none

def firstLicence : Document := ⟨"C640", "GBCHD2025.0000001"⟩

def secondLicence : Document := ⟨"C640", "GBCHD2025.0000002"⟩

/-- The decision on the herd. -/
def herdDecision (documents : List Document) : Decision :=
  Decision.build .epoch (herd documents) refusals
    ((herd documents).standardFindings .standard refusals)

theorem derive_herd (documents : List Document) :
    (herd documents).derive (.standard .standard) .epoch refusals =
      .ok (herdDecision documents) :=
  (herd documents).derive_standard .standard .epoch refusals

theorem herd_results_agree :
    optionsAgree resultsMatch (herdDecision [firstLicence, secondLicence]).results
      (herdDecision [secondLicence, firstLicence]).results = true := by
  decide +kernel

/-- The order of the certificates does not show in the results, but in the items: the
certificate that comes last decides. -/
theorem results_agree_items_differ :
    ∃ prior derived,
      (herd [firstLicence, secondLicence]).derive (.standard .standard) .epoch refusals =
        .ok prior ∧
      (herd [secondLicence, firstLicence]).derive (.standard .standard) .epoch refusals =
        .ok derived ∧
      optionsAgree resultsMatch prior.results derived.results = true ∧
      itemsExist (some prior.items) (some derived.items) = false :=
  ⟨herdDecision [firstLicence, secondLicence], herdDecision [secondLicence, firstLicence],
    derive_herd _, derive_herd _, herd_results_agree, by decide +kernel⟩

/-- Whatever order the certificates come in, the herd is refused. -/
theorem herd_severities_agree :
    (herdDecision [firstLicence, secondLicence]).items.map (·.outline (·.severity)) =
      (herdDecision [secondLicence, firstLicence]).items.map (·.outline (·.severity)) :=
  (Decision.items_agree_of_results_agree (derive_herd _) (derive_herd _) herd_results_agree).1

end BorderControl
