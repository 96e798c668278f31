import BorderControl.Decision.Build
import BorderControl.Proofs.Sorting

/-!
# Folding findings

The code that counts among several is the last of those of highest severity
(`getLast?_ofTopSeverity`), and which severity that is does not depend on their order
(`severity_mostSevere_of_perm`).

The items of a built decision hold one answer for every item number and check code that
occurs among the findings, folded from the findings of both (`Finding.group`). So a
look-up finds the fold of the group, if the group is not empty (`codeFor?_build`), and
decisions whose groups fold alike list the same checks (`map_outline_foldItems`).
-/

namespace BorderControl

/-! ## The code that counts -/

/-- The codes of the list that share the highest severity, if the list has one. -/
def ofTopSeverity (codes : List DecisionCode) : List DecisionCode :=
  codes.filter fun c => c.severity == (mostSevere codes).severity

theorem mostSevereFrom_spec : ∀ (codes : List DecisionCode) (best : DecisionCode),
    (∀ c ∈ best :: codes, c.severity ≤ (mostSevereFrom best codes).severity) ∧
      ((best :: codes).filter fun c =>
        c.severity == (mostSevereFrom best codes).severity).getLast? =
          some (mostSevereFrom best codes)
  | [], best => by simp [mostSevereFrom]
  | c :: codes, best => by
    rw [mostSevereFrom]
    by_cases hle : best.severity ≤ c.severity
    · rw [if_pos hle]
      obtain ⟨hmax, hlast⟩ := mostSevereFrom_spec codes c
      refine ⟨List.forall_mem_cons.mpr ⟨hle.trans (hmax c List.mem_cons_self), hmax⟩, ?_⟩
      rw [List.filter_cons]
      split
      · rw [List.getLast?_cons, hlast]
        rfl
      · exact hlast
    · rw [if_neg hle]
      obtain ⟨hmax, hlast⟩ := mostSevereFrom_spec codes best
      have hbest := hmax best List.mem_cons_self
      have hlow : ¬(c.severity == (mostSevereFrom best codes).severity) = true := by
        rw [beq_iff_eq]
        omega
      refine ⟨fun x hx => ?_, ?_⟩
      · rcases List.mem_cons.mp hx with rfl | hx
        · exact hbest
        rcases List.mem_cons.mp hx with rfl | hx
        · omega
        · exact hmax x (List.mem_cons_of_mem _ hx)
      · rw [List.filter_cons, List.filter_cons_of_neg (by simpa using hlow)]
        rwa [List.filter_cons] at hlast

section MostSevere

variable {codes : List DecisionCode}

theorem severity_le_mostSevere {c : DecisionCode} (h : c ∈ codes) :
    c.severity ≤ (mostSevere codes).severity := by
  cases codes with
  | nil => cases h
  | cons best rest => exact (mostSevereFrom_spec rest best).1 c h

/-- The code that counts is the last of highest severity. -/
theorem getLast?_ofTopSeverity (h : codes ≠ []) :
    (ofTopSeverity codes).getLast? = some (mostSevere codes) := by
  cases codes with
  | nil => exact absurd rfl h
  | cons best rest => exact (mostSevereFrom_spec rest best).2

theorem mostSevere_mem (h : codes ≠ []) : mostSevere codes ∈ codes :=
  (List.mem_filter.mp (List.mem_of_getLast? (getLast?_ofTopSeverity h))).1

/-- The severity that counts does not depend on the order of the codes. -/
theorem severity_mostSevere_of_perm {codes' : List DecisionCode} (h : codes.Perm codes') :
    (mostSevere codes).severity = (mostSevere codes').severity := by
  by_cases hne : codes = []
  · subst hne
    rw [h.nil_eq]
  have hne' : codes' ≠ [] := fun h' => hne (h' ▸ h).eq_nil
  exact Nat.le_antisymm (severity_le_mostSevere (h.mem_iff.mp (mostSevere_mem hne)))
    (severity_le_mostSevere (h.mem_iff.mpr (mostSevere_mem hne')))

end MostSevere

/-! ## Groups of findings -/

namespace Finding

/-- The findings for one check code of one item number. -/
def group (n : UInt32) (checkCode : String) (findings : List Finding) : List Finding :=
  (findings.filter (·.itemNumber == n)).filter (·.checkCode == checkCode)

theorem mem_group {n : UInt32} {checkCode : String} {findings : List Finding} {f : Finding} :
    f ∈ group n checkCode findings ↔
      f ∈ findings ∧ f.itemNumber = n ∧ f.checkCode = checkCode := by
  simp only [group, List.mem_filter, beq_iff_eq, and_assoc]

/-- The decision codes for one check code of one item number, in order. -/
def codesFor (n : UInt32) (checkCode : String) (findings : List Finding) : List DecisionCode :=
  (group n checkCode findings).map (·.decisionCode)

theorem mem_codesFor {n : UInt32} {checkCode : String} {findings : List Finding} {f : Finding}
    (hf : f ∈ findings) (hn : f.itemNumber = n) (hc : f.checkCode = checkCode) :
    f.decisionCode ∈ codesFor n checkCode findings :=
  List.mem_map_of_mem (mem_group.mpr ⟨hf, hn, hc⟩)

theorem codesFor_eq_nil_iff {n : UInt32} {checkCode : String} {findings : List Finding} :
    codesFor n checkCode findings = [] ↔ group n checkCode findings = [] :=
  List.map_eq_nil_iff

end Finding

open Finding

section Fold

variable {findings : List Finding} {n : UInt32} {checkCode : String}

/-- The item numbers of the findings, ascending. -/
def itemNumbers (findings : List Finding) : List UInt32 :=
  distinct (fun a b : UInt32 => a ≤ b) (findings.map (·.itemNumber))

/-- The check codes of the findings for an item, ascending. -/
def checkCodes (n : UInt32) (findings : List Finding) : List String :=
  distinct (fun a b : String => a ≤ b)
    ((findings.filter (·.itemNumber == n)).map (·.checkCode))

theorem mem_map_itemNumber :
    n ∈ findings.map (·.itemNumber) ↔ ∃ checkCode, group n checkCode findings ≠ [] := by
  rw [List.mem_map]
  constructor
  · rintro ⟨f, hf, rfl⟩
    exact ⟨f.checkCode, List.ne_nil_of_mem (mem_group.mpr ⟨hf, rfl, rfl⟩)⟩
  · rintro ⟨checkCode, h⟩
    obtain ⟨f, hf⟩ := List.exists_mem_of_ne_nil _ h
    exact ⟨f, (mem_group.mp hf).1, (mem_group.mp hf).2.1⟩

theorem mem_map_checkCode : checkCode ∈ (findings.filter (·.itemNumber == n)).map (·.checkCode) ↔
    group n checkCode findings ≠ [] := by
  rw [List.mem_map]
  constructor
  · rintro ⟨f, hf, rfl⟩
    exact List.ne_nil_of_mem (List.mem_filter.mpr ⟨hf, by simp⟩)
  · intro h
    obtain ⟨f, hf⟩ := List.exists_mem_of_ne_nil _ h
    obtain ⟨hf, hcode⟩ := List.mem_filter.mp hf
    exact ⟨f, hf, by simpa using hcode⟩

theorem mem_itemNumbers :
    n ∈ itemNumbers findings ↔ ∃ checkCode, group n checkCode findings ≠ [] :=
  mem_distinct.trans mem_map_itemNumber

theorem mem_checkCodes : checkCode ∈ checkCodes n findings ↔ group n checkCode findings ≠ [] :=
  mem_distinct.trans mem_map_checkCode

theorem foldItems_eq : foldItems findings = (itemNumbers findings).map fun n =>
    ⟨n, (checkCodes n findings).map fun code => foldCheck code (group n code findings)⟩ := rfl

/-- Every answer of the items is folded from a group that is not empty. -/
theorem eq_foldCheck_of_mem {item : ItemDecision} (hi : item ∈ foldItems findings)
    {check : CheckDecision} (hc : check ∈ item.checks) :
    check = foldCheck check.checkCode (group item.itemNumber check.checkCode findings) ∧
      group item.itemNumber check.checkCode findings ≠ [] := by
  rw [foldItems_eq] at hi
  obtain ⟨n, -, rfl⟩ := List.mem_map.mp hi
  obtain ⟨code, hcode, rfl⟩ := List.mem_map.mp hc
  exact ⟨rfl, mem_checkCodes.mp hcode⟩

/-! ## Looking up an answer -/

/-- Where the keys are distinct, a look-up by its key finds the entry. -/
theorem find?_key_of_mem {β κ : Type} [BEq κ] [LawfulBEq κ] {key : β → κ} {bs : List β}
    (hnodup : (bs.map key).Nodup) {b : β} (h : b ∈ bs) :
    bs.find? (key · == key b) = some b := by
  cases hfind : bs.find? (key · == key b) with
  | none => exact absurd (List.find?_eq_none.mp hfind b h) (by simp)
  | some b' =>
    rw [List.inj_on_of_nodup_map hnodup (List.mem_of_find?_eq_some hfind) h
      (by simpa using List.find?_some hfind)]

theorem find?_map_key {κ β : Type} [DecidableEq κ] {key : β → κ} {g : κ → β}
    (hkey : ∀ k, key (g k) = k) (k : κ) :
    ∀ ks : List κ, (ks.map g).find? (fun b => key b == k) = if k ∈ ks then some (g k) else none
  | [] => rfl
  | k' :: ks => by
    rw [List.map_cons, List.find?_cons, hkey, find?_map_key hkey k ks]
    by_cases h : k' = k
    · simp [h]
    · simp [beq_eq_false_iff_ne.mpr h, Ne.symm h]

theorem countP_map_key {κ β : Type} [DecidableEq κ] {key : β → κ} {g : κ → β}
    (hkey : ∀ k, key (g k) = k) {ks : List κ} (hnodup : ks.Nodup) (k : κ) :
    (ks.map g).countP (fun b => key b == k) = if k ∈ ks then 1 else 0 := by
  rw [List.countP_map, ← hnodup.count]
  exact List.countP_congr fun k' _ => by rw [Function.comp_apply, hkey]

/-- The decision has the item of a number that occurs. -/
theorem Decision.item?_build (now : Timestamp) (d : Declaration)
    (notifications : List Notification) (findings : List Finding) (n : UInt32) :
    (Decision.build now d notifications findings).item? n =
      if n ∈ itemNumbers findings then
        some (foldItem n (findings.filter (·.itemNumber == n))) else none :=
  find?_map_key (fun _ => rfl) n (itemNumbers findings)

/-- The item has the answer for a check code that occurs. -/
theorem check?_foldItem (n : UInt32) (checkCode : String) (findings : List Finding) :
    (foldItem n (findings.filter (·.itemNumber == n))).check? checkCode =
      if checkCode ∈ checkCodes n findings then
        some (foldCheck checkCode (group n checkCode findings)) else none :=
  find?_map_key (fun _ => rfl) checkCode (checkCodes n findings)

/-- The code that the decision gives for a check code of an item number. -/
def Decision.codeFor? (d : Decision) (n : UInt32) (checkCode : String) : Option DecisionCode :=
  ((d.item? n).bind (·.check? checkCode)).map (·.decisionCode)

/-- A look-up finds what the group folds to. -/
theorem Decision.codeFor?_build (now : Timestamp) (d : Declaration)
    (notifications : List Notification) :
    (Decision.build now d notifications findings).codeFor? n checkCode =
      if group n checkCode findings = [] then none
      else some (mostSevere (codesFor n checkCode findings)) := by
  rw [codeFor?, item?_build]
  by_cases hg : group n checkCode findings = []
  · rw [if_pos hg]
    split
    · rw [Option.bind_some, check?_foldItem, if_neg fun h => mem_checkCodes.mp h hg]
      rfl
    · rfl
  · rw [if_neg hg, if_pos (mem_itemNumbers.mpr ⟨checkCode, hg⟩), Option.bind_some,
      check?_foldItem, if_pos (mem_checkCodes.mpr hg)]
    rfl

end Fold

/-! ## Decisions with the same groups -/

/-- Item number, and the check codes with what `φ` shows of the answers. -/
def ItemDecision.outline {β : Type} (φ : DecisionCode → β) (i : ItemDecision) :
    UInt32 × List (String × β) :=
  (i.itemNumber, i.checks.map fun c => (c.checkCode, φ c.decisionCode))

theorem isRanking_uint32 : IsRanking fun a b : UInt32 => decide (a ≤ b) where
  total a b := by simpa using UInt32.le_total a b
  trans h₁ h₂ := by simpa using UInt32.le_trans (by simpa using h₁) (by simpa using h₂)

theorem isRanking_string : IsRanking fun a b : String => decide (a ≤ b) where
  total a b := by simpa using String.le_total a b
  trans h₁ h₂ := by simpa using String.le_trans (by simpa using h₁) (by simpa using h₂)

section Groups

variable {findings findings' : List Finding}

/-- Findings whose groups are as empty as their counterparts have the same item numbers. -/
theorem itemNumbers_eq
    (hnil : ∀ n code, group n code findings = [] ↔ group n code findings' = []) :
    itemNumbers findings = itemNumbers findings' := by
  refine distinct_eq_of_mem_iff isRanking_uint32 (fun a b h₁ h₂ => ?_) fun n => ?_
  · exact UInt32.le_antisymm (by simpa using h₁) (by simpa using h₂)
  · simp only [mem_map_itemNumber, ne_eq, hnil]

/-- And an item has the same check codes. -/
theorem checkCodes_eq
    (hnil : ∀ n code, group n code findings = [] ↔ group n code findings' = []) (n : UInt32) :
    checkCodes n findings = checkCodes n findings' := by
  refine distinct_eq_of_mem_iff isRanking_string (fun a b h₁ h₂ => ?_) fun code => ?_
  · exact String.le_antisymm (by simpa using h₁) (by simpa using h₂)
  · simp only [mem_map_checkCode, ne_eq, hnil]

/-- If every group is as empty as its counterpart, and folds to a related answer, the items
have the same numbers and related answers. -/
theorem forall₂_foldItems {R : CheckDecision → CheckDecision → Prop}
    (hnil : ∀ n code, group n code findings = [] ↔ group n code findings' = [])
    (hR : ∀ n code, R (foldCheck code (group n code findings))
      (foldCheck code (group n code findings'))) :
    List.Forall₂ (fun i i' => i.itemNumber = i'.itemNumber ∧ List.Forall₂ R i.checks i'.checks)
      (foldItems findings) (foldItems findings') := by
  rw [foldItems_eq, foldItems_eq, itemNumbers_eq hnil, List.forall₂_map_left_iff,
    List.forall₂_map_right_iff]
  refine List.forall₂_same.mpr fun n _ => ⟨rfl, ?_⟩
  simp only [checkCodes_eq hnil n, List.forall₂_map_left_iff, List.forall₂_map_right_iff]
  exact List.forall₂_same.mpr fun code _ => hR n code

/-- If every group is as empty as its counterpart, and folds alike under `φ`, the items
have one outline. -/
theorem map_outline_foldItems {β : Type} {φ : DecisionCode → β}
    (hnil : ∀ n code, group n code findings = [] ↔ group n code findings' = [])
    (hφ : ∀ n code, φ (mostSevere (codesFor n code findings)) =
      φ (mostSevere (codesFor n code findings'))) :
    (foldItems findings).map (·.outline φ) = (foldItems findings').map (·.outline φ) := by
  have hitems := forall₂_foldItems (R := fun c c' => (c.checkCode, φ c.decisionCode) =
    (c'.checkCode, φ c'.decisionCode)) hnil fun n code => congrArg (Prod.mk code) (hφ n code)
  refine map_eq_map_iff_forall₂.mpr (hitems.imp fun i i' hi => Prod.ext hi.1 ?_)
  exact map_eq_map_iff_forall₂.mpr hi.2

end Groups

end BorderControl
