import BorderControl.Proofs.Coverage
import Mathlib.Data.List.Perm.Basic

/-!
# Declarations in another order

A declaration may list its commodities, and each of them its documents and checks, in any
order (`Declaration.Rearranges`), and notifications may come in any order too. Every layer of
a derivation passes a change of order on: the documents that count, the pairs, the findings of
a check, and the findings of the declaration are the same up to order, their reasons apart
(`Declaration.perm_found`). Reasons name a document, and that may be another one.

Findings in another order fold into answers that match (`CheckDecision.Matches`). They have
the same severity, though of several codes that share it the last one counts, and the same
detail codes. So the decisions match, and their results are the same up to order and reasons
(`Declaration.derive_rearranged`).
-/

namespace BorderControl

/-! ## Another order -/

/-- The commodity with its documents and checks in another order. -/
structure Commodity.Rearranges (c c' : Commodity) : Prop where
  alike : c' = { c with documents := c'.documents, checks := c'.checks }
  documents : c.documents.Perm c'.documents
  checks : c.checks.Perm c'.checks

/-- The declaration with its commodities in another order, and each of them rearranged. -/
structure Declaration.Rearranges (d d' : Declaration) : Prop where
  alike : d' = { d with commodities := d'.commodities }
  commodities : ∃ moved, d.commodities.Perm moved ∧
    List.Forall₂ Commodity.Rearranges moved d'.commodities

theorem perm_flatMap_of_forall₂ {α β : Type} {R : α → α → Prop} {f g : α → List β}
    (hR : ∀ {a b}, R a b → (f a).Perm (g b)) {l l' : List α} (h : List.Forall₂ R l l') :
    (l.flatMap f).Perm (l'.flatMap g) := by
  induction h with
  | nil => exact .refl _
  | cons hab _ ih =>
    rw [List.flatMap_cons, List.flatMap_cons]
    exact (hR hab).append ih

/-! ## Pairs -/

section Pairs

variable {notifications notifications' : List Notification} {checkCode : String}
  {documents documents' : List Document}

theorem perm_evidence (checkCode : String) (h : documents.Perm documents') :
    (evidence checkCode documents).Perm (evidence checkCode documents') := by
  refine (List.perm_ext_iff_of_nodup (nodup_eraseDups _) (nodup_eraseDups _)).mpr fun d => ?_
  simp only [List.mem_eraseDups, List.mem_filter, h.mem_iff]

theorem perm_pairingsWith (h : notifications.Perm notifications') (d : Document) :
    (pairingsWith notifications d).Perm (pairingsWith notifications' d) := by
  rw [pairingsWith, pairingsWith]
  cases d.identifier? with
  | none => exact .refl _
  | some i =>
    have hfor : (notificationsFor notifications i).Perm (notificationsFor notifications' i) :=
      h.filter _
    rw [Option.elim_some, Option.elim_some, pairingsOf_eq, pairingsOf_eq,
      ← if_congr (eq_nil_iff_of_perm hfor) rfl rfl]
    split
    · exact .refl _
    · exact hfor.map _

theorem perm_pairings (hn : notifications.Perm notifications')
    (hd : documents.Perm documents') :
    (pairings notifications checkCode documents).Perm
      (pairings notifications' checkCode documents') := by
  have hevidence := perm_evidence checkCode hd
  rw [pairings_eq, pairings_eq, ← if_congr (eq_nil_iff_of_perm hevidence) rfl rfl]
  split
  · exact .refl _
  · exact hevidence.flatMap fun d _ => perm_pairingsWith hn d

end Pairs

/-! ## Findings -/

/-- The finding without its reasons. -/
def Finding.bare (f : Finding) : Finding := { f with reasons := [] }

theorem map_bare_explained (commodity : Commodity) (findings : List Finding) :
    (explained commodity findings).map Finding.bare = findings.map Finding.bare := by
  rw [explained, List.map_map]
  rfl

section Findings

variable {sets : RuleSets} {d d' : Declaration} {commodity commodity' : Commodity}
  {notifications notifications' : List Notification}

/-- Rules look neither at the other commodities nor at the lists of documents and checks. -/
theorem findingFor_rearranged (hd : d.Rearranges d') (hc : commodity.Rearranges commodity')
    (chain : Chain) (checkCode : String) (p : Pairing) :
    findingFor chain d' commodity' checkCode p = findingFor chain d commodity checkCode p := by
  have hstep : ∀ r : Rule, r.step ⟨d', commodity', checkCode, certificateForCheck? checkCode,
      p.notification, p.document⟩ = r.step ⟨d, commodity, checkCode,
        certificateForCheck? checkCode, p.notification, p.document⟩ := by
    intro r
    rw [hd.alike, hc.alike]
    cases r <;> rfl
  have houtcome : chain.resolve ⟨d', commodity', checkCode, certificateForCheck? checkCode,
      p.notification, p.document⟩ = chain.resolve ⟨d, commodity, checkCode,
        certificateForCheck? checkCode, p.notification, p.document⟩ :=
    Chain.resolve_congr fun r _ => hstep r
  have hmrn : d'.mrn = d.mrn := by rw [hd.alike]
  have hnumber : commodity'.itemNumber = commodity.itemNumber := by rw [hc.alike]
  rw [findingFor, findingFor, houtcome, hmrn, hnumber]

theorem Check.perm_found (check : Check) (hd : d.Rearranges d')
    (hc : commodity.Rearranges commodity') (hn : notifications.Perm notifications') :
    ((check.found sets d notifications commodity).map Finding.bare).Perm
      ((check.found sets d' notifications' commodity').map Finding.bare) := by
  have hfor : ∀ chain, findingFor chain d' commodity' check.code =
      findingFor chain d commodity check.code :=
    fun chain => funext (findingFor_rearranged hd hc chain check.code)
  rw [found, found, map_bare_explained, map_bare_explained, hfor]
  exact ((perm_pairings hn hc.documents).map _).map _

/-- The findings of a declaration are those of the declaration rearranged, up to their order
and reasons. -/
theorem Declaration.perm_found (hd : d.Rearranges d') (hn : notifications.Perm notifications') :
    ((d.found sets notifications).map Finding.bare).Perm
      ((d'.found sets notifications').map Finding.bare) := by
  obtain ⟨moved, hmoved, hcommodities⟩ := hd.commodities
  simp only [found, List.map_flatMap]
  refine (hmoved.flatMap_right _).trans (perm_flatMap_of_forall₂ (fun hc => ?_) hcommodities)
  exact hc.checks.flatMap fun check _ => check.perm_found hd hc hn

/-- A declaration asks for the same checks in any order. -/
theorem Declaration.Rearranges.perm_checks (hd : d.Rearranges d') :
    (d.commodities.flatMap (·.checks)).Perm (d'.commodities.flatMap (·.checks)) := by
  obtain ⟨moved, hmoved, hcommodities⟩ := hd.commodities
  exact (hmoved.flatMap_right _).trans (perm_flatMap_of_forall₂ (fun hc => hc.checks) hcommodities)

theorem Declaration.isCovered_iff :
    d.IsCovered sets ↔ ∀ check ∈ d.commodities.flatMap (·.checks), check.IsCovered sets := by
  simp only [IsCovered, List.mem_flatMap]
  exact ⟨fun h check ⟨commodity, hcommodity, hcheck⟩ => h commodity hcommodity check hcheck,
    fun h commodity hcommodity check hcheck => h check ⟨commodity, hcommodity, hcheck⟩⟩

theorem Declaration.isCovered_rearranged (hd : d.Rearranges d') :
    d.IsCovered sets ↔ d'.IsCovered sets := by
  simp only [isCovered_iff, hd.perm_checks.mem_iff]

end Findings

/-! ## Answers -/

/-- The answers are to one check and differ in their reasons, in the order of their detail
codes, and in which code counts among those of one severity. -/
structure CheckDecision.Matches (c c' : CheckDecision) : Prop where
  checkCode : c.checkCode = c'.checkCode
  severity : c.decisionCode.severity = c'.decisionCode.severity
  detailCodes : ∀ detail, detail ∈ c.detailCodes ↔ detail ∈ c'.detailCodes

/-- The items have one number, and answers that match. -/
structure ItemDecision.Matches (i i' : ItemDecision) : Prop where
  itemNumber : i.itemNumber = i'.itemNumber
  checks : List.Forall₂ CheckDecision.Matches i.checks i'.checks

/-- The result without its reason. -/
def Result.bare (r : Result) : Result := { r with reason := none }

section Answers

variable {findings findings' : List Finding}

theorem matches_foldCheck (checkCode : String)
    (h : (findings.map Finding.bare).Perm (findings'.map Finding.bare)) :
    (foldCheck checkCode findings).Matches (foldCheck checkCode findings') where
  checkCode := rfl
  severity := by
    have hcodes := h.map (·.decisionCode)
    rw [List.map_map, List.map_map] at hcodes
    exact severity_mostSevere_of_perm hcodes
  detailCodes detail := by
    have hdetails := h.filterMap (·.detailCode)
    rw [List.filterMap_map, List.filterMap_map] at hdetails
    exact List.mem_eraseDups.trans (hdetails.mem_iff.trans List.mem_eraseDups.symm)

theorem perm_group (h : (findings.map Finding.bare).Perm (findings'.map Finding.bare))
    (n : UInt32) (checkCode : String) :
    ((Finding.group n checkCode findings).map Finding.bare).Perm
      ((Finding.group n checkCode findings').map Finding.bare) := by
  have hgroup : ∀ findings : List Finding,
      (Finding.group n checkCode findings).map Finding.bare =
        Finding.group n checkCode (findings.map Finding.bare) := by
    intro findings
    rw [Finding.group, Finding.group, List.filter_map, List.filter_map]
    rfl
  rw [hgroup, hgroup]
  exact (h.filter _).filter _

theorem forall₂_matches_foldItems
    (h : (findings.map Finding.bare).Perm (findings'.map Finding.bare)) :
    List.Forall₂ ItemDecision.Matches (foldItems findings) (foldItems findings') := by
  have hnil : ∀ n code, Finding.group n code findings = [] ↔
      Finding.group n code findings' = [] := by
    intro n code
    have hbare := eq_nil_iff_of_perm (perm_group h n code)
    rwa [List.map_eq_nil_iff, List.map_eq_nil_iff] at hbare
  exact (forall₂_foldItems hnil fun n code => matches_foldCheck code (perm_group h n code)).imp
    fun _ _ hi => ⟨hi.1, hi.2⟩

theorem perm_results (h : (findings.map Finding.bare).Perm (findings'.map Finding.bare)) :
    ((findings.map Finding.toResult).map Result.bare).Perm
      ((findings'.map Finding.toResult).map Result.bare) := by
  have hresults := h.map Finding.toResult
  rw [List.map_map, List.map_map] at hresults ⊢
  exact hresults

end Answers

/-- A declaration that is decided is also decided in another order, and with notifications in
another order. The items have the same numbers and check codes, with codes of one severity
and the same detail codes, and the results are the same up to their order and reasons. -/
theorem Declaration.derive_rearranged {sets : RuleSets} {d d' : Declaration}
    {notifications notifications' : List Notification} {now : Timestamp} {decision : Decision}
    (hd : d.Rearranges d') (hn : notifications.Perm notifications')
    (h : d.derive sets now notifications = .ok decision) (later : Timestamp) :
    ∃ decision', d'.derive sets later notifications' = .ok decision' ∧
      List.Forall₂ ItemDecision.Matches decision.items decision'.items ∧
      Option.Rel (fun results results' =>
          (results.map Result.bare).Perm (results'.map Result.bare))
        decision.results decision'.results := by
  obtain ⟨hcovered, rfl⟩ := derive_eq_ok_iff_covered.mp h
  have hfindings : ((d.found sets notifications).map Finding.bare).Perm
      ((d'.found sets notifications').map Finding.bare) := perm_found hd hn
  exact ⟨d'.decided sets later notifications',
    derive_eq_ok_iff_covered.mpr ⟨(isCovered_rearranged hd).mp hcovered, rfl⟩,
    forall₂_matches_foldItems hfindings, .some (perm_results hfindings)⟩

/-- A lot with a check of no family. -/
def seeds : Commodity := ⟨2, none, none, none, [], [⟨"H999"⟩]⟩

/-- Live animals with two certificates. -/
def flock : Commodity :=
  ⟨1, some "0104103000", none, none,
    [⟨"C640", "GBCHD2025.0000001"⟩, ⟨"C640", "GBCHD2025.0000002"⟩], [⟨"H221"⟩, ⟨"H222"⟩]⟩

def flockTurned : Commodity :=
  { flock with documents := flock.documents.reverse, checks := flock.checks.reverse }

/-- A declaration of the flock and the seeds. -/
def stock : Declaration := ⟨"25GB0000000000014", some 1, none, [flock, seeds], none⟩

def stockTurned : Declaration := { stock with commodities := [seeds, flockTurned] }

/-- The animals of one certificate are to go back, those of the other are destroyed. -/
def flockRefusals : List Notification := [
  ⟨"CHEDA.GB.2025.0000001", .chedA, none, .validated,
    some ⟨some .nonAcceptable, some .reexport, none, none⟩, [], none⟩,
  ⟨"CHEDA.GB.2025.0000002", .chedA, none, .validated,
    some ⟨some .nonAcceptable, some .destruction, none, none⟩, [], none⟩]

/-- With everything turned round the answers match, but the other refusal counts. -/
theorem stock_rearranged :
    ∃ decision decision',
      stock.derive (.standard .standard) .epoch flockRefusals = .ok decision ∧
      stockTurned.derive (.standard .standard) .epoch flockRefusals.reverse = .ok decision' ∧
      List.Forall₂ ItemDecision.Matches decision.items decision'.items ∧
      decision.codeFor? 1 "H221" = some .n02 ∧ decision'.codeFor? 1 "H221" = some .n04 := by
  have hflock : flock.Rearranges flockTurned :=
    ⟨rfl, (List.reverse_perm _).symm, (List.reverse_perm _).symm⟩
  have hseeds : seeds.Rearranges seeds := ⟨rfl, .refl _, .refl _⟩
  have hstock : stock.Rearranges stockTurned :=
    ⟨rfl, [seeds, flock], List.Perm.swap _ _ _, .cons hseeds (.cons hflock .nil)⟩
  have hderive := stock.derive_standard .standard .epoch flockRefusals
  obtain ⟨decision', hderive', hitems, -⟩ := Declaration.derive_rearranged hstock
    (List.reverse_perm flockRefusals).symm hderive .epoch
  refine ⟨_, decision', hderive, hderive', hitems, by decide +kernel, ?_⟩
  rw [Declaration.derive_standard, Except.ok.injEq] at hderive'
  subst hderive'
  decide +kernel

end BorderControl
