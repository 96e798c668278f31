import BorderControl.Proofs.Folding
import BorderControl.Proofs.Utf8

/-!
# What a decision says of its findings

A decision summarises findings (`Decision.Summarises`) if its items are the item numbers of the
findings, ascending, and the checks of an item are the check codes of its findings, ascending by
their bytes. A check takes its decision code from the last of the most severe findings of its
group, and lists the reasons and the detail codes of the group in the order in which they first
appear (`CheckDecision.Folds`). The results are the findings one by one (`Result.Keeps`).

Findings have one summary, in items and results (`Decision.Summarises.unique`). The built
decision is it (`Decision.build_summarises`).
-/

namespace BorderControl

/-! ## Summaries -/

/-- The finding decides its group: it is the last of those of highest severity. -/
def Finding.Decides (f : Finding) (group : List Finding) : Prop :=
  ∃ before after, group = before ++ f :: after ∧
    (∀ g ∈ before, g.decisionCode.severity ≤ f.decisionCode.severity) ∧
    ∀ g ∈ after, g.decisionCode.severity < f.decisionCode.severity

/-- The check gives what its group of findings says. -/
structure CheckDecision.Folds (c : CheckDecision) (group : List Finding) : Prop where
  decided : ∃ f : Finding, f.Decides group ∧ c.decisionCode = f.decisionCode
  reasons : FirstAppearances (group.flatMap (·.reasons)) c.reasons
  detailCodes : FirstAppearances (group.filterMap (·.detailCode)) c.detailCodes

/-- The entry keeps the finding. Without reasons it has none, otherwise it has them all, joined
by a blank. -/
structure Result.Keeps (r : Result) (f : Finding) : Prop where
  itemNumber : r.itemNumber = f.itemNumber
  notificationReference : r.notificationReference = f.notificationReference
  documentReference : r.documentReference = f.documentReference
  documentCode : r.documentCode = f.documentCode
  checkCode : r.checkCode = f.checkCode
  decisionCode : r.decisionCode = f.decisionCode
  detailCode : r.detailCode = f.detailCode
  noReason : r.reason = none ↔ f.reasons = []
  reason : ∀ text, r.reason = some text → text = " ".intercalate f.reasons

/-- The decision says of the findings what there is to say, and nothing else. -/
structure Decision.Summarises (decision : Decision) (findings : List Finding) : Prop where
  itemsAscend : (decision.items.map (·.itemNumber)).Pairwise (· < ·)
  mem_items : ∀ n, n ∈ decision.items.map (·.itemNumber) ↔ ∃ f ∈ findings, f.itemNumber = n
  checksAscend : ∀ item ∈ decision.items, (item.checks.map (·.checkCode)).Pairwise
    fun a b => a.toUTF8.toList < b.toUTF8.toList
  mem_checks : ∀ item ∈ decision.items, ∀ code, code ∈ item.checks.map (·.checkCode) ↔
    ∃ f ∈ findings, f.itemNumber = item.itemNumber ∧ f.checkCode = code
  folds : ∀ item ∈ decision.items, ∀ c ∈ item.checks,
    c.Folds (Finding.group item.itemNumber c.checkCode findings)
  results : ∃ results, decision.results = some results ∧
    List.Forall₂ (fun f r => r.Keeps f) findings results

/-! ## One summary -/

section Unique

variable {group findings : List Finding}

/-- The findings that decide a group are equal. -/
theorem Finding.Decides.unique {f g : Finding} (hf : f.Decides group) (hg : g.Decides group) :
    f = g := by
  obtain ⟨before, after, rfl, hbefore, hafter⟩ := hf
  obtain ⟨before', after', heq, hbefore', hafter'⟩ := hg
  rcases List.append_eq_append_iff.mp heq with ⟨mid, hmid, htail⟩ | ⟨mid, hmid, htail⟩
  · cases mid with
    | nil => exact (List.cons.inj htail).1
    | cons x rest =>
      -- `g` stands behind `f` and `f` before `g`
      obtain ⟨rfl, rfl⟩ := List.cons.inj htail
      have h₁ := hafter g (by simp)
      have h₂ := hbefore' f (by simp [hmid])
      omega
  · cases mid with
    | nil => exact (List.cons.inj htail).1.symm
    | cons x rest =>
      obtain ⟨rfl, rfl⟩ := List.cons.inj htail
      have h₁ := hafter' f (by simp)
      have h₂ := hbefore g (by simp [hmid])
      omega

theorem CheckDecision.Folds.unique {c c' : CheckDecision} (hcode : c.checkCode = c'.checkCode)
    (hc : c.Folds group) (hc' : c'.Folds group) : c = c' := by
  obtain ⟨f, hf, hfc⟩ := hc.decided
  obtain ⟨f', hf', hfc'⟩ := hc'.decided
  rw [hf.unique hf', ← hfc'] at hfc
  rw [CheckDecision.mk.injEq]
  exact ⟨hcode, hfc, hc.reasons.unique hc'.reasons, hc.detailCodes.unique hc'.detailCodes⟩

theorem Result.Keeps.unique {r r' : Result} {f : Finding} (h : r.Keeps f) (h' : r'.Keeps f) :
    r = r' := by
  have hreason : r.reason = r'.reason := by
    cases hr : r.reason with
    | none => rw [h'.noReason.mpr (h.noReason.mp hr)]
    | some text =>
      cases hr' : r'.reason with
      | none =>
        rw [h.noReason.mpr (h'.noReason.mp hr')] at hr
        cases hr
      | some text' => rw [h.reason text hr, h'.reason text' hr']
  rw [Result.mk.injEq]
  exact ⟨h.itemNumber.trans h'.itemNumber.symm,
    h.notificationReference.trans h'.notificationReference.symm,
    h.documentReference.trans h'.documentReference.symm,
    h.documentCode.trans h'.documentCode.symm, h.checkCode.trans h'.checkCode.symm,
    h.decisionCode.trans h'.decisionCode.symm, hreason, h.detailCode.trans h'.detailCode.symm⟩

/-- Lists with the same keys are equal if entries with the same key are. -/
theorem eq_of_map_key {κ β : Type} {key : β → κ} : ∀ {xs ys : List β},
    xs.map key = ys.map key → (∀ x ∈ xs, ∀ y ∈ ys, key x = key y → x = y) → xs = ys
  | [], [], _, _ => rfl
  | x :: xs, y :: ys, hkeys, h => by
    obtain ⟨hkey, hrest⟩ := List.cons.inj hkeys
    obtain rfl := h x List.mem_cons_self y List.mem_cons_self hkey
    rw [eq_of_map_key hrest fun a ha b hb =>
      h a (List.mem_cons_of_mem _ ha) b (List.mem_cons_of_mem _ hb)]

/-- Findings have one summary. -/
theorem Decision.Summarises.unique {decision decision' : Decision}
    (h : decision.Summarises findings) (h' : decision'.Summarises findings) :
    decision.items = decision'.items ∧ decision.results = decision'.results := by
  constructor
  · have hnumbers : decision.items.map (·.itemNumber) = decision'.items.map (·.itemNumber) :=
      eq_of_ascending (fun _ _ => UInt32.lt_asymm) h.itemsAscend h'.itemsAscend fun n =>
        (h.mem_items n).trans (h'.mem_items n).symm
    refine eq_of_map_key hnumbers fun item hitem item' hitem' hn => ?_
    have hcodes : item.checks.map (·.checkCode) = item'.checks.map (·.checkCode) :=
      eq_of_ascending (fun _ _ => List.lt_asymm) (h.checksAscend item hitem)
        (h'.checksAscend item' hitem') fun code => by
          rw [h.mem_checks item hitem, h'.mem_checks item' hitem', hn]
    have hchecks : item.checks = item'.checks := eq_of_map_key hcodes fun c hc c' hc' hcode =>
      CheckDecision.Folds.unique hcode (h.folds item hitem c hc)
        (hn ▸ hcode ▸ h'.folds item' hitem' c' hc')
    rw [ItemDecision.mk.injEq]
    exact ⟨hn, hchecks⟩
  · obtain ⟨results, hresults, hkeeps⟩ := h.results
    obtain ⟨results', hresults', hkeeps'⟩ := h'.results
    have heq : results = results' :=
      List.right_unique_forall₂' (fun _ _ _ h h' => h.unique h') hkeeps hkeeps'
    rw [hresults, hresults', heq]

end Unique

/-! ## The built decision -/

section Build

variable {group : List Finding}

/-- A group that is not empty is decided by the finding whose code counts. -/
theorem exists_decides (h : group ≠ []) :
    ∃ f : Finding, f.Decides group ∧ mostSevere (group.map (·.decisionCode)) = f.decisionCode := by
  set top := mostSevere (group.map (·.decisionCode)) with htop
  have hmax : ∀ g ∈ group, g.decisionCode.severity ≤ top.severity := fun g hg =>
    severity_le_mostSevere (List.mem_map_of_mem hg)
  have hcodes : group.map (·.decisionCode) ≠ [] := mt List.map_eq_nil_iff.mp h
  have hlast := getLast?_ofTopSeverity hcodes
  rw [ofTopSeverity, List.filter_map, List.getLast?_map, ← htop] at hlast
  obtain ⟨f, hf, hcode⟩ := Option.map_eq_some_iff.mp hlast
  obtain ⟨front, hfront⟩ := List.getLast?_eq_some_iff.mp hf
  obtain ⟨before, behind, rfl, -, hbehind⟩ := List.filter_eq_append_iff.mp hfront
  obtain ⟨between, after, rfl, -, -, hafter⟩ := List.filter_eq_cons_iff.mp hbehind
  refine ⟨f, ⟨before ++ between, after, by simp, fun g hg => ?_, fun g hg => ?_⟩, hcode.symm⟩
  · rw [hcode]
    exact hmax g (List.append_assoc .. ▸ List.mem_append_left _ hg)
  · have hle := hmax g (by simp [hg])
    have hne := List.filter_eq_nil_iff.mp hafter g hg
    rw [Function.comp_apply, beq_iff_eq] at hne
    rw [hcode]
    omega

theorem folds_foldCheck (code : String) (h : group ≠ []) : (foldCheck code group).Folds group where
  decided := exists_decides h
  reasons := firstAppearances_eraseDups _
  detailCodes := firstAppearances_eraseDups _

theorem keeps_toResult (f : Finding) : f.toResult.Keeps f where
  itemNumber := rfl
  notificationReference := rfl
  documentReference := rfl
  documentCode := rfl
  checkCode := rfl
  decisionCode := rfl
  detailCode := rfl
  noReason := by simp [Finding.toResult]
  reason text h := by
    rw [Finding.toResult] at h
    split at h
    · cases h
    · exact (Option.some.inj h).symm

variable (findings : List Finding)

theorem itemNumbers_ascend : (itemNumbers findings).Pairwise (· < ·) :=
  (pairwise_distinct isRanking_uint32 _).imp fun ⟨hle, hne⟩ =>
    UInt32.lt_of_le_of_ne (of_decide_eq_true hle) hne

theorem checkCodes_ascend (n : UInt32) : (checkCodes n findings).Pairwise
    fun a b => a.toUTF8.toList < b.toUTF8.toList :=
  (pairwise_distinct isRanking_string _).imp fun ⟨hle, hne⟩ =>
    Text.toUTF8_lt_of_lt (String.not_le.mp fun hge =>
      hne (String.le_antisymm (of_decide_eq_true hle) hge))

theorem map_itemNumber_foldItems :
    (foldItems findings).map (·.itemNumber) = itemNumbers findings := by
  rw [foldItems_eq, List.map_map]
  exact List.map_id _

variable {findings}

theorem map_checkCode_of_mem {item : ItemDecision} (h : item ∈ foldItems findings) :
    item.checks.map (·.checkCode) = checkCodes item.itemNumber findings := by
  rw [foldItems_eq] at h
  obtain ⟨n, -, rfl⟩ := List.mem_map.mp h
  rw [List.map_map]
  exact List.map_id _

/-- A built decision summarises its findings. No other items and results do. -/
theorem Decision.build_summarises (now : Timestamp) (d : Declaration)
    (notifications : List Notification) (findings : List Finding) :
    (Decision.build now d notifications findings).Summarises findings ∧
      ∀ decision : Decision, decision.Summarises findings →
        decision.items = (Decision.build now d notifications findings).items ∧
          decision.results = (Decision.build now d notifications findings).results := by
  have hsummary : (Decision.build now d notifications findings).Summarises findings := by
    constructor
    case itemsAscend =>
      exact (map_itemNumber_foldItems findings).symm ▸ itemNumbers_ascend findings
    case mem_items =>
      intro n
      rw [Decision.build, map_itemNumber_foldItems, itemNumbers, mem_distinct, List.mem_map]
    case checksAscend =>
      intro item hitem
      exact (map_checkCode_of_mem hitem).symm ▸ checkCodes_ascend findings item.itemNumber
    case mem_checks =>
      intro item hitem code
      rw [map_checkCode_of_mem hitem, checkCodes, mem_distinct, List.mem_map]
      simp only [List.mem_filter, beq_iff_eq, and_assoc]
    case folds =>
      intro item hitem c hc
      obtain ⟨hfold, hgroup⟩ := eq_foldCheck_of_mem hitem hc
      exact hfold ▸ folds_foldCheck c.checkCode hgroup
    case results =>
      exact ⟨_, rfl, List.forall₂_map_right_iff.mpr
        (List.forall₂_same.mpr fun f _ => keeps_toResult f)⟩
  exact ⟨hsummary, fun decision hdecision => hdecision.unique hsummary⟩

end Build

end BorderControl
