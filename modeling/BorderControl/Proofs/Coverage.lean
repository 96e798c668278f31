import BorderControl.Proofs.Findings
import BorderControl.Proofs.Folding
import BorderControl.Timestamp.Clock

/-!
# Every check is answered

With any rule sets, a derivation can only fail for want of a chain. A declaration is covered
if all its checks have one (`Declaration.IsCovered`), and then its findings are those of the
checks, one after the other (`Declaration.findings_of_covered`). So a derivation that succeeds
is a map over the declarations (`Dossier.derive_eq_ok_iff`).

A decision answers a declaration (`Decision.Answers`) if its results are the findings of the
checks in order, if it has one entry for each check code of each item number and no others,
and if every finding shows in the entry for its check. Every decision of a derivation does
(`Dossier.every_check_answered`).
-/

namespace BorderControl

/-! ## Derivations that succeed -/

/-- If the results of a list are collected, there is one for every member. -/
theorem exists_of_collect {α β ε : Type} {f : α → Except ε (List β)} {l : List α} {bs : List β}
    (h : collect f l = .ok bs) : ∀ a ∈ l, ∃ b, f a = .ok b := by
  induction l generalizing bs with
  | nil => exact List.forall_mem_nil _
  | cons a l ih =>
    rw [collect] at h
    cases ha : f a with
    | error e =>
      rw [ha] at h
      cases h
    | ok b =>
      cases hrest : collect f l with
      | error e =>
        rw [ha, hrest] at h
        cases h
      | ok rest => exact List.forall_mem_cons.mpr ⟨⟨b, ha⟩, ih hrest⟩

namespace RuleSets

/-- The rules for a family, or for orphan checks; none for a family without a chain. -/
def rulesFor (sets : RuleSets) (c : Option Certificate) : Chain :=
  (sets.select c).toOption.getD []

theorem rulesFor_of_select {sets : RuleSets} {c : Option Certificate} {chain : Chain}
    (h : sets.select c = .ok chain) : sets.rulesFor c = chain := by
  rw [rulesFor, h]
  rfl

end RuleSets

section Found

variable {sets : RuleSets} {d : Declaration} {notifications : List Notification}
  {commodity : Commodity} {check : Check}

/-- The rule sets have a chain for the check. -/
def Check.IsCovered (check : Check) (sets : RuleSets) : Prop :=
  ∃ chain, sets.select (certificateForCheck? check.code) = .ok chain

/-- What a check finds, by the rules for its family. -/
def Check.found (check : Check) (sets : RuleSets) (d : Declaration)
    (notifications : List Notification) (commodity : Commodity) : List Finding :=
  explained commodity ((pairings notifications check.code commodity.documents).map
    (findingFor (sets.rulesFor (certificateForCheck? check.code)) d commodity check.code))

theorem Check.findings_eq_ok_iff {findings : List Finding} :
    check.findings sets d notifications commodity = .ok findings ↔
      check.IsCovered sets ∧ findings = check.found sets d notifications commodity := by
  rw [findings_eq, IsCovered, found]
  cases h : sets.select (certificateForCheck? check.code) with
  | error e =>
    constructor
    · intro hf
      cases hf
    · rintro ⟨⟨_, hchain⟩, -⟩
      cases hchain
  | ok chain =>
    rw [RuleSets.rulesFor_of_select h]
    constructor
    · intro hf
      exact ⟨⟨chain, rfl⟩, (Except.ok.inj hf).symm⟩
    · rintro ⟨-, rfl⟩
      rfl

theorem Check.findings_of_covered (h : check.IsCovered sets) (d : Declaration)
    (notifications : List Notification) (commodity : Commodity) :
    check.findings sets d notifications commodity =
      .ok (check.found sets d notifications commodity) :=
  findings_eq_ok_iff.mpr ⟨h, rfl⟩

/-- A check finds something, be it that there is no document. -/
theorem Check.found_ne_nil (check : Check) (sets : RuleSets) (d : Declaration)
    (notifications : List Notification) (commodity : Commodity) :
    check.found sets d notifications commodity ≠ [] := by
  have hpairs : pairings notifications check.code commodity.documents ≠ [] := by
    rw [pairings]
    split <;> simp
  simpa [found, explained] using hpairs

theorem Check.mem_found {f : Finding} (h : f ∈ check.found sets d notifications commodity) :
    f.itemNumber = commodity.itemNumber ∧ f.checkCode = check.code := by
  obtain ⟨bare, hbare, rfl⟩ := List.mem_map.mp h
  obtain ⟨p, -, rfl⟩ := List.mem_map.mp hbare
  exact ⟨rfl, rfl⟩

namespace Declaration

/-- The rule sets have a chain for every check of the declaration. -/
def IsCovered (d : Declaration) (sets : RuleSets) : Prop :=
  ∀ commodity ∈ d.commodities, ∀ check ∈ commodity.checks, check.IsCovered sets

/-- What the checks of the declaration find, one after the other. -/
def found (d : Declaration) (sets : RuleSets) (notifications : List Notification) :
    List Finding :=
  d.commodities.flatMap fun commodity => commodity.checks.flatMap fun check =>
    check.found sets d notifications commodity

theorem mem_found {f : Finding} : f ∈ d.found sets notifications ↔
    ∃ commodity ∈ d.commodities, ∃ check ∈ commodity.checks,
      f ∈ check.found sets d notifications commodity := by
  simp only [found, List.mem_flatMap]

theorem findings_of_covered (h : d.IsCovered sets) (notifications : List Notification) :
    d.findings sets notifications = .ok (d.found sets notifications) :=
  collect_eq_ok fun commodity hcommodity => collect_eq_ok fun check hcheck =>
    Check.findings_of_covered (h commodity hcommodity check hcheck) d notifications commodity

theorem isCovered_of_findings {findings : List Finding}
    (h : d.findings sets notifications = .ok findings) : d.IsCovered sets := by
  intro commodity hcommodity check hcheck
  obtain ⟨inner, hinner⟩ := exists_of_collect h commodity hcommodity
  obtain ⟨fs, hfs⟩ := exists_of_collect hinner check hcheck
  exact (Check.findings_eq_ok_iff.mp hfs).1

/-- What the rule sets decide on a declaration that they cover. -/
def decided (d : Declaration) (sets : RuleSets) (now : Timestamp)
    (notifications : List Notification) : Decision :=
  Decision.build now d notifications (d.found sets notifications)

/-- A declaration has a decision exactly if it is covered. -/
theorem derive_eq_ok_iff_covered {now : Timestamp} {decision : Decision} :
    d.derive sets now notifications = .ok decision ↔
      d.IsCovered sets ∧ decision = d.decided sets now notifications := by
  rw [derive_eq_ok_iff]
  constructor
  · rintro ⟨findings, hfindings, rfl⟩
    have hcovered := isCovered_of_findings hfindings
    rw [findings_of_covered hcovered, Except.ok.injEq] at hfindings
    exact ⟨hcovered, by rw [decided, hfindings]⟩
  · rintro ⟨hcovered, rfl⟩
    exact ⟨_, findings_of_covered hcovered notifications, rfl⟩

end Declaration

/-- A dossier is decided exactly if all its declarations are covered, and then each in turn. -/
theorem Dossier.derive_eq_ok_iff {dossier : Dossier} {now : Timestamp}
    {decisions : List (String × Decision)} :
    dossier.derive sets now = .ok decisions ↔
      (∀ d ∈ dossier.declarations, d.IsCovered sets) ∧
        decisions = dossier.declarations.map fun d =>
          (d.mrn, d.decided sets now dossier.notifications) := by
  have hall : (∀ d ∈ dossier.declarations, d.IsCovered sets) →
      dossier.derive sets now = .ok (dossier.declarations.map fun d =>
        (d.mrn, d.decided sets now dossier.notifications)) := by
    intro hcovered
    rw [List.map_eq_flatMap]
    refine collect_eq_ok fun d hd => ?_
    rw [Declaration.derive_eq_ok_iff_covered.mpr ⟨hcovered d hd, rfl⟩]
    rfl
  constructor
  · intro h
    have hcovered : ∀ d ∈ dossier.declarations, d.IsCovered sets := by
      intro d hd
      obtain ⟨entry, hentry⟩ := exists_of_collect h d hd
      cases hderive : d.derive sets now dossier.notifications with
      | error e =>
        rw [hderive] at hentry
        cases hentry
      | ok decision => exact (Declaration.derive_eq_ok_iff_covered.mp hderive).1
    rw [hall hcovered, Except.ok.injEq] at h
    exact ⟨hcovered, h.symm⟩
  · rintro ⟨hcovered, rfl⟩
    exact hall hcovered

end Found

/-! ## Decisions that answer -/

/-- The finding shows in the answer. -/
structure CheckDecision.Reflects (c : CheckDecision) (f : Finding) : Prop where
  severity : f.decisionCode.severity ≤ c.decisionCode.severity
  detailCode : ∀ detail, f.detailCode = some detail → detail ∈ c.detailCodes
  reasons : ∀ reason ∈ f.reasons, reason ∈ c.reasons

theorem reflects_foldCheck {code : String} {findings : List Finding} {f : Finding}
    (h : f ∈ findings) : (foldCheck code findings).Reflects f where
  severity := severity_le_mostSevere (List.mem_map_of_mem h)
  detailCode _ hdetail := List.mem_eraseDups.mpr (List.mem_filterMap.mpr ⟨f, h, hdetail⟩)
  reasons _ hreason := List.mem_eraseDups.mpr (List.mem_flatMap.mpr ⟨f, h, hreason⟩)

/-- The decision answers every check of the declaration from its findings, and nothing
else. -/
structure Decision.Answers (decision : Decision) (d : Declaration)
    (found : Commodity → Check → List Finding) : Prop where
  /-- The results are the findings of the checks in order. -/
  results : decision.results = some ((d.commodities.flatMap fun commodity =>
    commodity.checks.flatMap (found commodity)).map Finding.toResult)
  /-- There is one item for a number with a check, and none for another. -/
  items : ∀ n, decision.items.countP (·.itemNumber == n) =
    if ∃ commodity ∈ d.commodities, commodity.itemNumber = n ∧ commodity.checks ≠ []
    then 1 else 0
  /-- An item has one entry for a check code of its number, and none for another. -/
  entries : ∀ item ∈ decision.items, ∀ code, item.checks.countP (·.checkCode == code) =
    if ∃ commodity ∈ d.commodities, commodity.itemNumber = item.itemNumber ∧
      ⟨code⟩ ∈ commodity.checks
    then 1 else 0
  item?_eq : ∀ item ∈ decision.items, decision.item? item.itemNumber = some item
  check?_eq : ∀ item ∈ decision.items, ∀ c ∈ item.checks, item.check? c.checkCode = some c
  /-- All findings of a check show in its entry. -/
  reflects : ∀ commodity ∈ d.commodities, ∀ check ∈ commodity.checks, ∃ item c,
    decision.item? commodity.itemNumber = some item ∧ item.check? check.code = some c ∧
      ∀ f ∈ found commodity check, c.Reflects f

section Answers

variable {sets : RuleSets} {d : Declaration} {notifications : List Notification}
  {n : UInt32} {code : String}

/-- There are findings for a check code of an item number exactly if the check is declared. -/
theorem Declaration.group_found_ne_nil_iff :
    Finding.group n code (d.found sets notifications) ≠ [] ↔
      ∃ commodity ∈ d.commodities, commodity.itemNumber = n ∧ ⟨code⟩ ∈ commodity.checks := by
  constructor
  · intro h
    obtain ⟨f, hf⟩ := List.exists_mem_of_ne_nil _ h
    obtain ⟨hf, hn, hcode⟩ := Finding.mem_group.mp hf
    obtain ⟨commodity, hcommodity, check, hcheck, hf⟩ := mem_found.mp hf
    obtain ⟨hitem, hcheckCode⟩ := Check.mem_found hf
    obtain rfl : check = ⟨code⟩ := congrArg Check.mk (hcheckCode.symm.trans hcode)
    exact ⟨commodity, hcommodity, hitem.symm.trans hn, hcheck⟩
  · rintro ⟨commodity, hcommodity, hn, hcheck⟩
    obtain ⟨f, hf⟩ := List.exists_mem_of_ne_nil _
      (Check.found_ne_nil ⟨code⟩ sets d notifications commodity)
    obtain ⟨hitem, hcode⟩ := Check.mem_found hf
    exact List.ne_nil_of_mem (Finding.mem_group.mpr
      ⟨mem_found.mpr ⟨commodity, hcommodity, _, hcheck, hf⟩, hitem.trans hn, hcode⟩)

theorem Declaration.mem_itemNumbers_found : n ∈ itemNumbers (d.found sets notifications) ↔
    ∃ commodity ∈ d.commodities, commodity.itemNumber = n ∧ commodity.checks ≠ [] := by
  simp only [mem_itemNumbers, group_found_ne_nil_iff]
  constructor
  · rintro ⟨code, commodity, hcommodity, hn, hcheck⟩
    exact ⟨commodity, hcommodity, hn, List.ne_nil_of_mem hcheck⟩
  · rintro ⟨commodity, hcommodity, hn, hchecks⟩
    obtain ⟨check, hcheck⟩ := List.exists_mem_of_ne_nil _ hchecks
    exact ⟨check.code, commodity, hcommodity, hn, hcheck⟩

theorem Declaration.decided_answers (d : Declaration) (sets : RuleSets) (now : Timestamp)
    (notifications : List Notification) :
    (d.decided sets now notifications).Answers d fun commodity check =>
      check.found sets d notifications commodity := by
  have hmem : ∀ item ∈ (d.decided sets now notifications).items, ∃ n,
      n ∈ itemNumbers (d.found sets notifications) ∧
        item = foldItem n ((d.found sets notifications).filter (·.itemNumber == n)) := by
    intro item hitem
    obtain ⟨n, hn, rfl⟩ := List.mem_map.mp hitem
    exact ⟨n, hn, rfl⟩
  constructor
  case results => rfl
  case items =>
    intro n
    rw [← if_congr mem_itemNumbers_found rfl rfl]
    exact countP_map_key (fun _ => rfl) (nodup_distinct _) n
  case entries =>
    intro item hitem code
    obtain ⟨n, -, rfl⟩ := hmem item hitem
    rw [← if_congr (mem_checkCodes.trans group_found_ne_nil_iff) rfl rfl]
    exact countP_map_key (fun _ => rfl) (nodup_distinct _) code
  case item?_eq =>
    intro item hitem
    obtain ⟨n, hn, rfl⟩ := hmem item hitem
    exact (Decision.item?_build ..).trans (if_pos hn)
  case check?_eq =>
    intro item hitem c hc
    obtain ⟨n, -, rfl⟩ := hmem item hitem
    obtain ⟨code, hcode, rfl⟩ := List.mem_map.mp hc
    exact (check?_foldItem n code _).trans (if_pos hcode)
  case reflects =>
    intro commodity hcommodity check hcheck
    have hn : commodity.itemNumber ∈ itemNumbers (d.found sets notifications) :=
      mem_itemNumbers_found.mpr ⟨commodity, hcommodity, rfl, List.ne_nil_of_mem hcheck⟩
    have hcode : check.code ∈ checkCodes commodity.itemNumber (d.found sets notifications) :=
      mem_checkCodes.mpr (group_found_ne_nil_iff.mpr ⟨commodity, hcommodity, rfl, hcheck⟩)
    refine ⟨_, _, (Decision.item?_build ..).trans (if_pos hn),
      (check?_foldItem ..).trans (if_pos hcode), fun f hf => reflects_foldCheck ?_⟩
    obtain ⟨hitem, hcheckCode⟩ := Check.mem_found hf
    exact Finding.mem_group.mpr
      ⟨mem_found.mpr ⟨commodity, hcommodity, check, hcheck, hf⟩, hitem, hcheckCode⟩

/-- A derivation that succeeds has one decision for each declaration, in order, and each
answers all checks of its declaration from their findings, of which there are some. -/
theorem Dossier.every_check_answered {dossier : Dossier} {now : Timestamp}
    {decisions : List (String × Decision)} (h : dossier.derive sets now = .ok decisions) :
    List.Forall₂ (fun d entry => entry.1 = d.mrn ∧ ∃ found : Commodity → Check → List Finding,
        (∀ commodity ∈ d.commodities, ∀ check ∈ commodity.checks,
          check.findings sets d dossier.notifications commodity = .ok (found commodity check) ∧
            found commodity check ≠ []) ∧
        Decision.Answers entry.2 d found)
      dossier.declarations decisions := by
  obtain ⟨hcovered, rfl⟩ := derive_eq_ok_iff.mp h
  refine List.forall₂_map_right_iff.mpr (List.forall₂_same.mpr fun d hd => ?_)
  refine ⟨rfl, _, fun commodity hcommodity check hcheck => ?_, d.decided_answers sets now _⟩
  exact ⟨Check.findings_of_covered (hcovered d hd commodity hcommodity check hcheck) d _ commodity,
    check.found_ne_nil sets d _ commodity⟩

end Answers

/-- The standard rule sets cover everything. -/
theorem Declaration.isCovered_standard (d : Declaration) (s : RuleSettings) :
    d.IsCovered (.standard s) :=
  fun _ _ check _ => ⟨_, RuleSets.select_standard s (certificateForCheck? check.code)⟩

theorem Declaration.found_standard (d : Declaration) (s : RuleSettings)
    (notifications : List Notification) :
    d.found (.standard s) notifications = d.standardFindings s notifications :=
  Except.ok.inj ((findings_of_covered (d.isCovered_standard s) notifications).symm.trans
    (d.findings_standard s notifications))

/-- So every dossier is decided. -/
theorem Dossier.derive_standard (dossier : Dossier) (s : RuleSettings) (now : Timestamp) :
    dossier.derive (.standard s) now = .ok (dossier.declarations.map fun d =>
      (d.mrn, d.decided (.standard s) now dossier.notifications)) :=
  derive_eq_ok_iff.mpr ⟨fun d _ => d.isCovered_standard s, rfl⟩

/-- A load in three lots, two of them under one number, with one check asked for twice. -/
def mixedLoad : Declaration where
  mrn := "25GB0000000000016"
  version := some 1
  finalisation := none
  commodities := [
    ⟨2, some "0102290500", none, none, [⟨"C640", "GBCHD2025.0000016"⟩], [⟨"H221"⟩, ⟨"H221"⟩]⟩,
    ⟨1, none, none, none, [], []⟩,
    ⟨2, some "0302110000", none, none, [], [⟨"H224"⟩, ⟨"H221"⟩]⟩]
  decision := none

/-- The lot without a check has no item, and the check that is asked for in both others has
one entry. -/
theorem mixedLoad_answered : ∃ decision item,
    (Dossier.mk [mixedLoad] []).derive (.standard .standard) .epoch =
      .ok [(mixedLoad.mrn, decision)] ∧
    decision.items.countP (·.itemNumber == 1) = 0 ∧
    decision.item? 2 = some item ∧ item.checks.countP (·.checkCode == "H221") = 1 := by
  have hderive : (Dossier.mk [mixedLoad] []).derive (.standard .standard) .epoch =
      .ok [(mixedLoad.mrn, mixedLoad.decided (.standard .standard) .epoch [])] :=
    Dossier.derive_standard _ _ _
  obtain ⟨⟨-, found, -, hanswers⟩, -⟩ :=
    List.forall₂_cons.mp (Dossier.every_check_answered hderive)
  obtain ⟨item, c, hitem, -⟩ :=
    hanswers.reflects _ List.mem_cons_self _ List.mem_cons_self
  have hmem := List.mem_of_find?_eq_some hitem
  have hnumber : item.itemNumber = 2 := by simpa using List.find?_some hitem
  refine ⟨_, item, hderive, ?_, hitem, ?_⟩
  · rw [hanswers.items]
    decide
  · rw [hanswers.entries item hmem, hnumber]
    decide

end BorderControl
