import BorderControl.Proofs.Rearranging
import BorderControl.Proofs.Relevance
import Mathlib.Data.List.Flatten
import Mathlib.Data.List.Perm.Subperm
import Mathlib.Logic.Relation

/-!
# More evidence

A check is resolved against notifications and documents (`Papers`). Papers come in one at a
time and are put anywhere among the others (`Papers.Gains`). Two of them can make a check
milder and are left out here: a notification that links a document which had none, and the
first document that counts, for both take the place of an unresolved pair.

With any other paper the pairs of before all stay (`Papers.Gains.subperm_pairings`), so after
any number of papers they are still there, and with them the findings of the check
(`Check.subperm_found`) and of all checks with one code on one item
(`Declaration.subperm_group_found`). Among more codes the most severe is as severe or more so,
and findings that are kept uphold the answer (`upholds_of_subperm`).

`Declaration.never_softened` says so of the findings of a check and of the code that the
decision gives: a refusal, an unresolved check or a hold is never turned into a release.
-/

namespace BorderControl

open Relation (ReflTransGen)

/-! ## Papers -/

/-- What the checks on a commodity are resolved against. -/
structure Papers where
  notifications : List Notification
  documents : List Document

/-- The papers for a check with the code, and one more among them. -/
inductive Papers.Gains (checkCode : String) : Papers → Papers → Prop
  /-- The documents that count and name the certificate of the notification have been notified
  already. -/
  | notification {front back : List Notification} {documents : List Document} (x : Notification)
      (linked : ∀ d ∈ documents, d.qualifiesFor checkCode = true →
        d.identifier? = x.identifier? → ∃ n ∈ front ++ back, n.identifier? = d.identifier?) :
      Gains checkCode ⟨front ++ back, documents⟩ ⟨front ++ x :: back, documents⟩
  /-- There is a document that counts already. -/
  | document {notifications : List Notification} {front back : List Document} (x : Document)
      (counted : ∃ d ∈ front ++ back, d.qualifiesFor checkCode = true) :
      Gains checkCode ⟨notifications, front ++ back⟩ ⟨notifications, front ++ x :: back⟩

theorem subperm_map {α β : Type} (f : α → β) {xs ys : List α} (h : xs.Subperm ys) :
    (xs.map f).Subperm (ys.map f) := by
  obtain ⟨zs, hperm, hsub⟩ := h
  exact ⟨zs.map f, hperm.map f, hsub.map f⟩

theorem subperm_flatMap {α β : Type} (f : α → List β) {xs ys : List α} (h : xs.Subperm ys) :
    (xs.flatMap f).Subperm (ys.flatMap f) := by
  obtain ⟨zs, hperm, hsub⟩ := h
  exact ⟨zs.flatMap f, hperm.flatMap_right f, hsub.flatMap f⟩

theorem subperm_flatMap_of_forall₂ {α β : Type} {R : α → α → Prop} {f g : α → List β}
    (hR : ∀ {a b}, R a b → (f a).Subperm (g b)) {l l' : List α} (h : List.Forall₂ R l l') :
    (l.flatMap f).Subperm (l'.flatMap g) := by
  induction h with
  | nil => exact .refl _
  | cons hab _ ih =>
    rw [List.flatMap_cons, List.flatMap_cons]
    exact (hR hab).append ih

section Pairs

variable {checkCode : String} {papers papers' : Papers}

/-- A document keeps its pairs among more notifications, unless it gets its first one. -/
theorem sublist_pairingsWith {notifications notifications' : List Notification}
    (hsub : notifications.Sublist notifications') {d : Document} {i : Identifier}
    (hi : d.identifier? = some i)
    (hlinked : notificationsFor notifications i = [] → notificationsFor notifications' i = []) :
    (pairingsWith notifications d).Sublist (pairingsWith notifications' d) := by
  have hfor : (notificationsFor notifications i).Sublist (notificationsFor notifications' i) :=
    hsub.filter _
  rw [pairingsWith_of_identifier hi, pairingsWith_of_identifier hi, pairingsOf_eq, pairingsOf_eq]
  by_cases hnone : notificationsFor notifications i = []
  · rw [if_pos hnone, if_pos (hlinked hnone)]
  · have hsome : notificationsFor notifications' i ≠ [] := fun h =>
      hnone (List.sublist_nil.mp (h ▸ hfor))
    rw [if_neg hnone, if_neg hsome]
    exact hfor.map _

theorem evidence_ne_nil_iff {documents : List Document} : evidence checkCode documents ≠ [] ↔
    ∃ d ∈ documents, d.qualifiesFor checkCode = true := by
  rw [← List.length_pos_iff, List.length_pos_iff_exists_mem]
  simp only [mem_evidence]

/-- One paper more takes no pair away. -/
theorem Papers.Gains.subperm_pairings (h : papers.Gains checkCode papers') :
    (pairings papers.notifications checkCode papers.documents).Subperm
      (pairings papers'.notifications checkCode papers'.documents) := by
  cases h with
  | @notification front back documents x linked =>
    rw [pairings_eq, pairings_eq]
    split
    · exact .refl _
    refine (List.Sublist.flatMap_right _ fun d hd => ?_).subperm
    obtain ⟨hdocument, hq⟩ := mem_evidence.mp hd
    obtain ⟨i, hi⟩ := Document.exists_identifier hq
    refine sublist_pairingsWith (.append_left (List.sublist_cons_self x back) front) hi ?_
    intro hnone
    have hx : x.identifier? ≠ some i := by
      intro hx
      obtain ⟨n, hn, hni⟩ := linked d hdocument hq (hi.trans hx.symm)
      have hmem : n ∈ notificationsFor (front ++ back) i :=
        List.mem_filter.mpr ⟨hn, beq_iff_eq.mpr (hni.trans hi)⟩
      exact List.ne_nil_of_mem hmem hnone
    exact (notificationsFor_insert hx).trans hnone
  | @document notifications front back x counted =>
    have hevidence : evidence checkCode (front ++ back) ⊆
        evidence checkCode (front ++ x :: back) := by
      intro d hd
      obtain ⟨hdocument, hq⟩ := mem_evidence.mp hd
      have hsub := List.Sublist.append_left (List.sublist_cons_self x back) front
      exact mem_evidence.mpr ⟨hsub.subset hdocument, hq⟩
    obtain ⟨d, hd⟩ := List.exists_mem_of_ne_nil _ (evidence_ne_nil_iff.mpr counted)
    rw [pairings_eq, pairings_eq, if_neg (List.ne_nil_of_mem hd),
      if_neg (List.ne_nil_of_mem (hevidence hd))]
    exact subperm_flatMap _ ((nodup_eraseDups _).subperm hevidence)

/-- Nor do any number of papers. -/
theorem subperm_pairings (h : ReflTransGen (Papers.Gains checkCode) papers papers') :
    (pairings papers.notifications checkCode papers.documents).Subperm
      (pairings papers'.notifications checkCode papers'.documents) := by
  induction h with
  | refl => exact .refl _
  | tail _ hgains ih => exact ih.trans hgains.subperm_pairings

end Pairs

/-! ## Findings that are kept -/

/-- The code is no milder than `c`: as severe or more so, and a release only where `c` is one. -/
structure DecisionCode.NoMilder (c' c : DecisionCode) : Prop where
  severity : c.severity ≤ c'.severity
  noRelease : c.isRelease = false → c'.isRelease = false

/-- The findings are all kept, their reasons apart, and the answer that they fold into is no
milder for those that are new. -/
structure Upholds (checkCode : String) (findings' findings : List Finding) : Prop where
  kept : (findings.map Finding.bare).Subperm (findings'.map Finding.bare)
  code : (foldCheck checkCode findings').decisionCode.NoMilder
    (foldCheck checkCode findings).decisionCode

theorem DecisionCode.noMilder_of_severity {c c' : DecisionCode} (h : c.severity ≤ c'.severity) :
    c'.NoMilder c where
  severity := h
  noRelease hc := by
    rw [← Bool.not_eq_true, DecisionCode.isRelease_iff] at hc ⊢
    omega

/-- Among more codes the most severe is as severe or more so. -/
theorem severity_mostSevere_of_subset {codes codes' : List DecisionCode} (hne : codes ≠ [])
    (h : codes ⊆ codes') : (mostSevere codes).severity ≤ (mostSevere codes').severity :=
  severity_le_mostSevere (h (mostSevere_mem hne))

theorem upholds_of_subperm {checkCode : String} {findings findings' : List Finding}
    (hne : findings ≠ []) (h : (findings.map Finding.bare).Subperm (findings'.map Finding.bare)) :
    Upholds checkCode findings' findings where
  kept := h
  code := by
    have hcodes : findings.map (·.decisionCode) ⊆ findings'.map (·.decisionCode) := by
      have hbare := List.map_subset (·.decisionCode) h.subset
      rwa [List.map_map, List.map_map] at hbare
    exact DecisionCode.noMilder_of_severity
      (severity_mostSevere_of_subset (mt List.map_eq_nil_iff.mp hne) hcodes)

section Findings

variable {sets : RuleSets} {d d' : Declaration} {commodity : Commodity}
  {notifications notifications' : List Notification} {documents : List Document}

/-- Rules look neither at the commodities of a declaration nor at the documents of one. -/
theorem findingFor_gained (chain : Chain) (d : Declaration) (others : List Commodity)
    (commodity : Commodity) (documents : List Document) (checkCode : String) (p : Pairing) :
    findingFor chain { d with commodities := others } { commodity with documents := documents }
      checkCode p = findingFor chain d commodity checkCode p := by
  have houtcome : chain.resolve ⟨{ d with commodities := others },
      { commodity with documents := documents }, checkCode, certificateForCheck? checkCode,
      p.notification, p.document⟩ = chain.resolve ⟨d, commodity, checkCode,
        certificateForCheck? checkCode, p.notification, p.document⟩ :=
    Chain.resolve_congr fun r _ => by cases r <;> rfl
  rw [findingFor, houtcome]
  rfl

/-- A check keeps its findings when papers come in, whatever becomes of the other commodities. -/
theorem Check.subperm_found (check : Check)
    (h : ReflTransGen (Papers.Gains check.code) ⟨notifications, commodity.documents⟩
      ⟨notifications', documents⟩) (others : List Commodity) :
    ((check.found sets d notifications commodity).map Finding.bare).Subperm
      ((check.found sets { d with commodities := others } notifications'
        { commodity with documents := documents }).map Finding.bare) := by
  have hfor : ∀ chain, findingFor chain { d with commodities := others }
      { commodity with documents := documents } check.code =
        findingFor chain d commodity check.code :=
    fun chain => funext (findingFor_gained chain d others commodity documents check.code)
  rw [found, found, map_bare_explained, map_bare_explained, hfor]
  exact subperm_map _ (subperm_map _ (subperm_pairings h))

end Findings

/-! ## Declarations -/

/-- The declaration and the notifications, with more papers for the checks that have the code
and are of an item with the number `n`. What comes in for other items does not matter. -/
structure Declaration.Gains (n : UInt32) (checkCode : String) (d : Declaration)
    (notifications : List Notification) (d' : Declaration) (notifications' : List Notification) :
    Prop where
  alike : d' = { d with commodities := d'.commodities }
  commodities : List.Forall₂ (fun c c' : Commodity =>
      c' = { c with documents := c'.documents } ∧
      (c.itemNumber = n → ReflTransGen (Papers.Gains checkCode) ⟨notifications, c.documents⟩
        ⟨notifications', c'.documents⟩))
    d.commodities d'.commodities

section Declarations

variable {sets : RuleSets} {n : UInt32} {checkCode : String} {d d' : Declaration}
  {notifications notifications' : List Notification}

/-- The items still have their numbers and checks. -/
theorem Declaration.Gains.map_checks (h : d.Gains n checkCode notifications d' notifications') :
    d.commodities.map (fun c => (c.itemNumber, c.checks)) =
      d'.commodities.map fun c => (c.itemNumber, c.checks) :=
  map_eq_map_iff_forall₂.mpr (h.commodities.imp fun _ _ hc => by rw [hc.1])

theorem Declaration.Gains.isCovered_iff (h : d.Gains n checkCode notifications d' notifications') :
    d.IsCovered sets ↔ d'.IsCovered sets := by
  have hchecks := congrArg (List.flatMap Prod.snd) h.map_checks
  rw [List.flatMap_map, List.flatMap_map] at hchecks
  rw [Declaration.isCovered_iff, Declaration.isCovered_iff, hchecks]

theorem Declaration.Gains.group_found_eq_nil_iff
    (h : d.Gains n checkCode notifications d' notifications') (m : UInt32) (code : String) :
    Finding.group m code (d.found sets notifications) = [] ↔
      Finding.group m code (d'.found sets notifications') = [] := by
  have hasked : ∀ e : Declaration,
      (∃ c ∈ e.commodities, c.itemNumber = m ∧ ⟨code⟩ ∈ c.checks) ↔
        ∃ item ∈ e.commodities.map (fun c => (c.itemNumber, c.checks)),
          item.1 = m ∧ ⟨code⟩ ∈ item.2 := by simp
  refine not_iff_not.mp (group_found_ne_nil_iff.trans ?_)
  rw [hasked, h.map_checks, ← hasked]
  exact group_found_ne_nil_iff.symm

theorem group_found_eq (d : Declaration) (notifications : List Notification) :
    Finding.group n checkCode (d.found sets notifications) =
      d.commodities.flatMap fun c => c.checks.flatMap fun check =>
        Finding.group n checkCode (check.found sets d notifications c) := by
  simp only [Finding.group, Declaration.found, List.filter_flatMap]

/-- The findings of one check are in one group, all of them. -/
theorem Check.group_found (check : Check) (d : Declaration) (commodity : Commodity) :
    Finding.group n checkCode (check.found sets d notifications commodity) =
      if commodity.itemNumber = n ∧ check.code = checkCode
      then check.found sets d notifications commodity else [] := by
  split
  · next hgroup =>
    obtain ⟨rfl, rfl⟩ := hgroup
    rw [Finding.group, List.filter_filter, List.filter_eq_self]
    intro f hf
    obtain ⟨hitem, hcode⟩ := mem_found hf
    rw [hitem, hcode, beq_self_eq_true, beq_self_eq_true, Bool.and_self]
  · next hgroup =>
    refine List.eq_nil_iff_forall_not_mem.mpr fun f hf => hgroup ?_
    obtain ⟨hf, hn, hcode⟩ := Finding.mem_group.mp hf
    obtain ⟨hitem, hcheck⟩ := mem_found hf
    exact ⟨hitem.symm.trans hn, hcheck.symm.trans hcode⟩

/-- The findings of all checks with the code on the items with the number are kept. -/
theorem Declaration.subperm_group_found (h : d.Gains n checkCode notifications d' notifications') :
    ((Finding.group n checkCode (d.found sets notifications)).map Finding.bare).Subperm
      ((Finding.group n checkCode (d'.found sets notifications')).map Finding.bare) := by
  rw [group_found_eq, group_found_eq, List.map_flatMap, List.map_flatMap]
  refine subperm_flatMap_of_forall₂ (fun {c c'} hc => ?_) h.commodities
  obtain ⟨halike, hgains⟩ := hc
  have hchecks : c'.checks = c.checks := by rw [halike]
  rw [List.map_flatMap, List.map_flatMap, hchecks]
  refine subperm_flatMap_of_forall₂ (R := Eq) ?_ (List.forall₂_refl _)
  rintro check _ rfl
  rw [check.group_found, check.group_found]
  have hnumber : c'.itemNumber = c.itemNumber := by rw [halike]
  rw [hnumber]
  split
  · next hgroup =>
    obtain ⟨hn, rfl⟩ := hgroup
    rw [h.alike, halike]
    exact check.subperm_found (hgains hn) d'.commodities
  · exact .refl _

/-- Papers that come in anywhere, unless one links a document that had no notification or is
the first document to count, never soften a check. It still has all its findings, their
reasons apart, and folds into a code that is as severe or more so, and no release unless it was
one. The decision on the declaration gives no milder code either for the checks with one code
on an item. -/
theorem Declaration.never_softened (sets : RuleSets) (d : Declaration)
    (notifications : List Notification) :
    (∀ (check : Check) (commodity : Commodity) (findings : List Finding),
      check.findings sets d notifications commodity = .ok findings →
      ∀ papers, ReflTransGen (Papers.Gains check.code) ⟨notifications, commodity.documents⟩
        papers →
      ∀ others, ∃ findings', check.findings sets { d with commodities := others }
          papers.notifications { commodity with documents := papers.documents } = .ok findings' ∧
        Upholds check.code findings' findings) ∧
    ∀ n checkCode d' notifications', d.Gains n checkCode notifications d' notifications' →
      ∀ now decision, d.derive sets now notifications = .ok decision →
      ∀ later, ∃ decision', d'.derive sets later notifications' = .ok decision' ∧
        Option.Rel (fun c c' => c'.NoMilder c) (decision.codeFor? n checkCode)
          (decision'.codeFor? n checkCode) := by
  constructor
  · intro check commodity findings h papers hgains others
    obtain ⟨hcovered, rfl⟩ := Check.findings_eq_ok_iff.mp h
    exact ⟨_, Check.findings_of_covered hcovered _ _ _,
      upholds_of_subperm (check.found_ne_nil sets d _ _) (check.subperm_found hgains others)⟩
  · intro n checkCode d' notifications' hgains now decision h later
    obtain ⟨hcovered, rfl⟩ := derive_eq_ok_iff_covered.mp h
    refine ⟨_, derive_eq_ok_iff_covered.mpr ⟨hgains.isCovered_iff.mp hcovered, rfl⟩, ?_⟩
    rw [decided, decided, Decision.codeFor?_build, Decision.codeFor?_build]
    have hnil : Finding.group n checkCode (d.found sets notifications) = [] ↔
        Finding.group n checkCode (d'.found sets notifications') = [] :=
      hgains.group_found_eq_nil_iff n checkCode
    by_cases hgroup : Finding.group n checkCode (d.found sets notifications) = []
    · rw [if_pos hgroup, if_pos (hnil.mp hgroup)]
      exact .none
    · rw [if_neg hgroup, if_neg (mt hnil.mpr hgroup)]
      have hupholds : Upholds checkCode (Finding.group n checkCode (d'.found sets notifications'))
          (Finding.group n checkCode (d.found sets notifications)) :=
        upholds_of_subperm hgroup (subperm_group_found hgains)
      exact .some hupholds.code

end Declarations

/-- Ewes with one certificate. -/
def ewes : Commodity :=
  ⟨1, some "0104103000", none, none, [⟨"C640", "GBCHD2025.0000029"⟩], [⟨"H221"⟩]⟩

/-- The ewes with one certificate more. -/
def ewesTwice : Commodity :=
  { ewes with documents := ⟨"C640", "GBCHD2025.0000030"⟩ :: ewes.documents }

/-- The certificate as it was notified first. Nobody has decided on it. -/
def ewesPending : Notification :=
  ⟨"CHEDA.GB.2025.0000029", .chedA, none, .submitted, none, [], none⟩

/-- The certificate is notified again, and the ewes are let in. -/
def ewesAccepted : Notification :=
  ⟨"CHEDA.GB.2025.0000029V", .chedA, none, .validated,
    some ⟨some .internalMarket, none, none, none⟩, [⟨"0104", none, none⟩], none⟩

def ewesDeclared (commodity : Commodity) : Declaration :=
  ⟨"25GB0000000000029", some 1, none, [commodity], none⟩

theorem ewes_gain : ReflTransGen (Papers.Gains "H221") ⟨[ewesPending], ewes.documents⟩
    ⟨[ewesAccepted, ewesPending], ewesTwice.documents⟩ :=
  .tail (.single (@Papers.Gains.notification "H221" [] [ewesPending] _ ewesAccepted
    (by decide +kernel))) (@Papers.Gains.document "H221" _ [] ewes.documents _ (by decide +kernel))

/-- The ewes are held for the pending notification. The other one alone would release them, but
the hold stays, and with a certificate that nobody has notified the check is unresolved. -/
theorem ewes_never_softened :
    (∃ findings findings',
      (Check.mk "H221").findings (.standard .standard) (ewesDeclared ewes) [ewesPending] ewes =
        .ok findings ∧
      (Check.mk "H221").findings (.standard .standard) (ewesDeclared ewesTwice)
        [ewesAccepted, ewesPending] ewesTwice = .ok findings' ∧
      Upholds "H221" findings' findings ∧
      findings.map (·.decisionCode) = [.h01] ∧
      findings'.map (·.decisionCode) = [.x00, .c03, .h01]) ∧
    ∃ decision decision',
      (ewesDeclared ewes).derive (.standard .standard) .epoch [ewesPending] = .ok decision ∧
      (ewesDeclared ewesTwice).derive (.standard .standard) .epoch
        [ewesAccepted, ewesPending] = .ok decision' ∧
      decision.codeFor? 1 "H221" = some .h01 ∧ decision'.codeFor? 1 "H221" = some .x00 ∧
      Option.Rel (fun c c' => c'.NoMilder c) (decision.codeFor? 1 "H221")
        (decision'.codeFor? 1 "H221") := by
  obtain ⟨hfindings, hdecision⟩ :=
    Declaration.never_softened (.standard .standard) (ewesDeclared ewes) [ewesPending]
  constructor
  · have hcheck := (Check.mk "H221").findings_standard .standard (ewesDeclared ewes)
      [ewesPending] ewes
    obtain ⟨findings', hcheck', hupholds⟩ := hfindings _ _ _ hcheck _ ewes_gain [ewesTwice]
    refine ⟨_, findings', hcheck, hcheck', hupholds, by decide +kernel, ?_⟩
    rw [Check.findings_standard, Except.ok.injEq] at hcheck'
    subst hcheck'
    decide +kernel
  · have hderive := (ewesDeclared ewes).derive_standard .standard .epoch [ewesPending]
    have hgains : (ewesDeclared ewes).Gains 1 "H221" [ewesPending] (ewesDeclared ewesTwice)
        [ewesAccepted, ewesPending] := ⟨rfl, .cons ⟨rfl, fun _ => ewes_gain⟩ .nil⟩
    obtain ⟨decision', hderive', hcode⟩ := hdecision _ _ _ _ hgains _ _ hderive .epoch
    refine ⟨_, decision', hderive, hderive', by decide +kernel, ?_, hcode⟩
    rw [Declaration.derive_standard, Except.ok.injEq] at hderive'
    subst hderive'
    decide +kernel

/-- A first notification does make the check milder. -/
example : ((Check.mk "H221").standardFindings .standard (ewesDeclared ewes) [] ewes).map
      (·.decisionCode) = [.x00] ∧
    ((Check.mk "H221").standardFindings .standard (ewesDeclared ewes) [ewesAccepted] ewes).map
      (·.decisionCode) = [.c03] := by decide +kernel

end BorderControl
