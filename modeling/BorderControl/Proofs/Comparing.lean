import BorderControl.Proofs.Grouping
import BorderControl.Proofs.ResultOrder

/-!
# What a comparison looks at

Decisions and items are compared by sorting two lists and going through them place by place. What
is compared at a place is a key, and not the whole entry, so two lists agree exactly if they show
the same keys once they are sorted. A comparison by a key is an equivalence
(`equivalence_of_key`).

The results of a decision are shown by `digest`, and decisions are the same if they have one
marker or one digest (`Decision.sameAs_iff`). A marker may join decisions with different digests,
so this is an equivalence only where markers tell digests (`Decision.sameAs_equivalence`).

A list of items is shown by its `listing`, so that to exist is an equivalence on all lists. Where
items and their checks have distinct keys, the listing is the table of decision codes by item
number and check code, with the numbers of the items (`listing_eq_iff`). Neither the wording of
the answers nor the order of items and checks is part of it (`itemsExist_equivalence`).
-/

namespace BorderControl

/-! ## Comparisons by a key -/

section Key

variable {α κ : Type} {r : α → α → Bool} {key : α → κ}

theorem pairwiseAgree_iff_map (h : ∀ a b, r a b = true ↔ key a = key b) (as bs : List α) :
    pairwiseAgree r as bs = true ↔ as.map key = bs.map key := by
  rw [pairwiseAgree_iff, map_eq_map_iff_forall₂]
  simp only [h]

theorem optionsAgree_iff_map (h : ∀ a b, r a b = true ↔ key a = key b) :
    ∀ a b : Option α, optionsAgree r a b = true ↔ a.map key = b.map key
  | none, none => by simp [optionsAgree]
  | none, some _ => by simp [optionsAgree]
  | some _, none => by simp [optionsAgree]
  | some a, some b => by simp [optionsAgree, h]

theorem equivalence_of_key (h : ∀ a b, r a b = true ↔ key a = key b) :
    Equivalence fun a b => r a b = true := by
  simp only [h]
  exact eq_equivalence.comap key

end Key

/-! ## The same decision -/

/-- What results are compared by. -/
def Result.facts (r : Result) :
    UInt32 × Bool × Option String × String × DecisionCode × Option String × Option DetailCode :=
  (r.itemNumber, r.isLinked, r.documentReference, r.checkCode, r.decisionCode, r.reason,
    r.detailCode)

theorem Result.agrees_iff (a b : Result) : a.agrees b = true ↔ a.facts = b.facts := by
  simp only [agrees, facts, Bool.and_eq_true, beq_iff_eq, Prod.mk.injEq, and_assoc]

/-- What a list of results is compared by. -/
def digest (results : List Result) :
    List (UInt32 × Bool × Option String × String × DecisionCode × Option String ×
      Option DetailCode) :=
  (sortBy Result.documentLe results).map Result.facts

theorem resultsMatch_iff (a b : List Result) : resultsMatch a b = true ↔ digest a = digest b :=
  pairwiseAgree_iff_map Result.agrees_iff _ _

namespace Decision

/-- The decisions have a marker in common. -/
def ShareMarker (a b : Decision) : Prop :=
  ∃ marker, a.sourceVersion = some marker ∧ b.sourceVersion = some marker

theorem sameMarker_iff (a b : Decision) : a.sameMarker b = true ↔ a.ShareMarker b := by
  rw [sameMarker, Bool.and_eq_true, Option.isSome_iff_exists, beq_iff_eq]
  constructor
  · rintro ⟨⟨marker, ha⟩, heq⟩
    exact ⟨marker, ha, heq ▸ ha⟩
  · rintro ⟨marker, ha, hb⟩
    exact ⟨⟨marker, ha⟩, ha.trans hb.symm⟩

/-- Decisions are the same if they share a marker or show the same results. -/
theorem sameAs_iff (a b : Decision) :
    a.sameAs b = true ↔ a.ShareMarker b ∨ a.results.map digest = b.results.map digest := by
  rw [sameAs, Bool.or_eq_true, sameMarker_iff, optionsAgree_iff_map resultsMatch_iff]

theorem sameAs_symm {a b : Decision} (h : a.sameAs b = true) : b.sameAs a = true :=
  sameAs_comm a b ▸ h

/-- Every decision is the same as itself, and two decisions are the same either way round. One
without results is the same as one with results only if they share a marker. Among decisions of
which any two that share a marker have results that match, it is an equivalence. -/
theorem sameAs_equivalence :
    (∀ d : Decision, d.sameAs d = true) ∧
      (∀ a b : Decision, a.sameAs b = true → b.sameAs a = true) ∧
      (∀ (a b : Decision) (results : List Result), a.results = none → b.results = some results →
        (a.sameAs b = true ↔ a.ShareMarker b) ∧ (b.sameAs a = true ↔ b.ShareMarker a)) ∧
      ∀ decisions : Set Decision,
        (∀ a ∈ decisions, ∀ b ∈ decisions, a.ShareMarker b →
          optionsAgree resultsMatch a.results b.results = true) →
        Equivalence fun a b : decisions => a.1.sameAs b.1 = true := by
  refine ⟨fun d => (sameAs_iff d d).mpr (Or.inr rfl), fun a b => sameAs_symm,
    fun a b results ha hb => ?_, fun decisions htrusted => ?_⟩
  · rw [sameAs_iff, sameAs_iff, ha, hb]
    simp
  · -- where markers tell digests, the marker adds nothing to the comparison
    have hkey : ∀ a b : decisions, a.1.sameAs b.1 = true ↔
        a.1.results.map digest = b.1.results.map digest := by
      intro a b
      rw [sameAs_iff, or_iff_right_iff_imp, ← optionsAgree_iff_map resultsMatch_iff]
      exact htrusted a a.2 b b.2
    exact equivalence_of_key hkey

/-- A marker on decisions with different results breaks the chain. -/
example : ∃ a b c : Decision, a.sameAs b = true ∧ b.sameAs c = true ∧ a.sameAs c = false :=
  ⟨⟨some "v1", none, [], none⟩, ⟨some "v1", none, [], some []⟩, ⟨none, none, [], some []⟩,
    by decide⟩

end Decision

/-- Answers on two licences. -/
def licences : List Result :=
  [licenceResult "GBCHD2025.0000001" .c03, licenceResult "GBCHD2025.0000002" .n04]

/-- A decision with these results and a marker. -/
def marked (marker : String) (results : List Result) : Decision :=
  { unmarked results with sourceVersion := some marker }

/-- The answers under one marker in two orders, without a marker, and others under a marker of
their own. -/
def licenceDecisions : List Decision :=
  [marked "v1" licences.reverse, marked "v1" licences, unmarked licences, marked "v2" []]

theorem licenceDecisions_trusted :
    ∀ a ∈ {d | d ∈ licenceDecisions}, ∀ b ∈ {d | d ∈ licenceDecisions},
      a.ShareMarker b → optionsAgree resultsMatch a.results b.results = true := by
  have hmarker : ∀ a ∈ licenceDecisions, ∀ b ∈ licenceDecisions, a.sameMarker b = true →
      optionsAgree resultsMatch a.results b.results = true := by decide +kernel
  exact fun a ha b hb h => hmarker a ha b hb ((Decision.sameMarker_iff a b).mpr h)

/-- By marker and by results the first of them is the same as the third. -/
theorem licences_same : (marked "v1" licences.reverse).sameAs (unmarked licences) = true := by
  have hequivalence := Decision.sameAs_equivalence.2.2.2 {d | d ∈ licenceDecisions}
    licenceDecisions_trusted
  have hfirst : marked "v1" licences.reverse ∈ licenceDecisions := by simp [licenceDecisions]
  have hsecond : marked "v1" licences ∈ licenceDecisions := by simp [licenceDecisions]
  have hthird : unmarked licences ∈ licenceDecisions := by simp [licenceDecisions]
  have hmarker : (marked "v1" licences.reverse).sameAs (marked "v1" licences) = true := by decide
  have hresults : (marked "v1" licences).sameAs (unmarked licences) = true := by decide +kernel
  exact hequivalence.trans (x := ⟨_, hfirst⟩) (y := ⟨_, hsecond⟩) (z := ⟨_, hthird⟩) hmarker
    hresults

/-! ## Existing items -/

/-- The order of items by number. -/
def itemLe (a b : ItemDecision) : Bool := a.itemNumber ≤ b.itemNumber

/-- What a list of items is compared by. -/
def listing (items : List ItemDecision) : List (UInt32 × List (String × DecisionCode)) :=
  (sortBy itemLe items).map fun i => (i.itemNumber, i.checkKeys)

theorem ItemDecision.agrees_iff (a b : ItemDecision) :
    a.agrees b = true ↔ (a.itemNumber, a.checkKeys) = (b.itemNumber, b.checkKeys) := by
  rw [agrees, Bool.and_eq_true, beq_iff_eq, beq_iff_eq, Prod.mk.injEq]

theorem itemListsExist_iff (a b : List ItemDecision) :
    itemListsExist a b = true ↔ listing a = listing b :=
  pairwiseAgree_iff_map ItemDecision.agrees_iff _ _

theorem itemsExist_iff (a b : Option (List ItemDecision)) :
    itemsExist a b = true ↔ a.map listing = b.map listing :=
  optionsAgree_iff_map itemListsExist_iff a b

theorem listing_eq_of_forall₂ {items items' : List ItemDecision}
    (h : List.Forall₂ (fun i i' => i.itemNumber = i'.itemNumber ∧ i.checkKeys = i'.checkKeys)
      items items') : listing items = listing items' := by
  refine map_eq_map_iff_forall₂.mpr ((forall₂_sortBy (fun hab hab' => ?_) h).imp
    fun i i' hi => Prod.ext hi.1 hi.2)
  rw [itemLe, itemLe, hab.1, hab'.1]

/-! ### Other words -/

/-- The item with other reasons and detail codes. -/
def ItemDecision.Rewords (i i' : ItemDecision) : Prop :=
  i.itemNumber = i'.itemNumber ∧ List.Forall₂ (fun c c' : CheckDecision =>
    c.checkCode = c'.checkCode ∧ c.decisionCode = c'.decisionCode) i.checks i'.checks

theorem ItemDecision.checkKeys_reworded {i i' : ItemDecision} (h : i.Rewords i') :
    i.checkKeys = i'.checkKeys := by
  have hkeys : i.checks.map (fun c => (c.checkCode, c.decisionCode)) =
      i'.checks.map fun c => (c.checkCode, c.decisionCode) :=
    map_eq_map_iff_forall₂.mpr (h.2.imp fun c c' hc => Prod.ext hc.1 hc.2)
  rw [checkKeys, checkKeys, hkeys]

theorem listing_reworded {items items' : List ItemDecision}
    (h : List.Forall₂ ItemDecision.Rewords items items') : listing items = listing items' :=
  listing_eq_of_forall₂ (h.imp fun _ _ hi => ⟨hi.1, ItemDecision.checkKeys_reworded hi⟩)

theorem map_listing_reworded {a a' : Option (List ItemDecision)}
    (h : Option.Rel (List.Forall₂ ItemDecision.Rewords) a a') : a.map listing = a'.map listing := by
  cases h with
  | some h => exact congrArg some (listing_reworded h)
  | none => rfl

/-! ### Tables of items -/

/-- No two items have one number, and no two checks of an item one code. -/
structure HaveDistinctKeys (items : List ItemDecision) : Prop where
  numbers : (items.map (·.itemNumber)).Nodup
  codes : ∀ i ∈ items, (i.checks.map (·.checkCode)).Nodup

/-- The decision code that the items give for a check code of an item number. -/
def codeIn? (items : List ItemDecision) (n : UInt32) (checkCode : String) :
    Option DecisionCode :=
  ((items.find? (·.itemNumber == n)).bind (·.check? checkCode)).map (·.decisionCode)

section Tables

variable {items items' : List ItemDecision} {i : ItemDecision} {n : UInt32} {checkCode : String}
  {code : DecisionCode}

theorem mem_checkKeys : (checkCode, code) ∈ i.checkKeys ↔
    ∃ c ∈ i.checks, c.checkCode = checkCode ∧ c.decisionCode = code := by
  rw [ItemDecision.checkKeys, (perm_sortBy _ _).mem_iff, List.mem_map]
  simp only [Prod.mk.injEq]

theorem mem_listing {keys : List (String × DecisionCode)} :
    (n, keys) ∈ listing items ↔ ∃ i ∈ items, i.itemNumber = n ∧ i.checkKeys = keys := by
  rw [listing, List.mem_map]
  simp only [(perm_sortBy _ _).mem_iff, Prod.mk.injEq]

/-- Where the codes are distinct, the keys of an item are its table. -/
theorem mem_checkKeys_iff (hcodes : (i.checks.map (·.checkCode)).Nodup) :
    (checkCode, code) ∈ i.checkKeys ↔ (i.check? checkCode).map (·.decisionCode) = some code := by
  rw [mem_checkKeys, Option.map_eq_some_iff]
  constructor
  · rintro ⟨c, hc, rfl, rfl⟩
    exact ⟨c, find?_key_of_mem hcodes hc, rfl⟩
  · rintro ⟨c, hfind, rfl⟩
    exact ⟨c, List.mem_of_find?_eq_some hfind, by simpa using List.find?_some hfind, rfl⟩

theorem codeIn?_of_mem (h : HaveDistinctKeys items) (hi : i ∈ items) :
    codeIn? items i.itemNumber checkCode = (i.check? checkCode).map (·.decisionCode) := by
  rw [codeIn?, find?_key_of_mem h.numbers hi, Option.bind_some]

theorem mem_map_number : n ∈ items.map (·.itemNumber) ↔ ∃ keys, (n, keys) ∈ listing items := by
  simp only [mem_listing, List.mem_map]
  exact ⟨fun ⟨i, hi, hn⟩ => ⟨_, i, hi, hn, rfl⟩, fun ⟨_, i, hi, hn, _⟩ => ⟨i, hi, hn⟩⟩

/-- The table can be read from the listing. -/
theorem codeIn?_eq_some_iff (h : HaveDistinctKeys items) :
    codeIn? items n checkCode = some code ↔
      ∃ keys, (n, keys) ∈ listing items ∧ (checkCode, code) ∈ keys := by
  constructor
  · intro hcode
    obtain ⟨c, hc, rfl⟩ := Option.map_eq_some_iff.mp hcode
    obtain ⟨i, hi, hcheck⟩ := Option.bind_eq_some_iff.mp hc
    have hmem := List.mem_of_find?_eq_some hi
    refine ⟨_, mem_listing.mpr ⟨i, hmem, by simpa using List.find?_some hi, rfl⟩,
      (mem_checkKeys_iff (h.codes i hmem)).mpr ?_⟩
    rw [hcheck, Option.map_some]
  · rintro ⟨keys, hkeys, hkey⟩
    obtain ⟨i, hi, rfl, rfl⟩ := mem_listing.mp hkeys
    rw [codeIn?_of_mem h hi]
    exact (mem_checkKeys_iff (h.codes i hi)).mp hkey

theorem isRanking_itemLe : IsRanking itemLe :=
  isRanking_uint32.comap ItemDecision.itemNumber

theorem isRanking_checkKeys :
    IsRanking fun a b : String × DecisionCode => decide (a.1 ≤ b.1) :=
  isRanking_string.comap Prod.fst

theorem ItemDecision.checkKeys_ascend (hcodes : (i.checks.map (·.checkCode)).Nodup) :
    i.checkKeys.Pairwise fun a b => a.1 < b.1 := by
  refine pairwise_sortBy_of_nodup isRanking_checkKeys
    (fun h hne => Std.lt_of_le_of_ne (of_decide_eq_true h) hne) ?_
  rw [List.map_map]
  exact hcodes

theorem listing_ascend (h : HaveDistinctKeys items) :
    (listing items).Pairwise fun a b => a.1 < b.1 := by
  rw [listing, List.pairwise_map]
  exact pairwise_sortBy_of_nodup isRanking_itemLe
    (fun h hne => UInt32.lt_of_le_of_ne (of_decide_eq_true h) hne) h.numbers

theorem mem_listing_of_same (h : HaveDistinctKeys items) (h' : HaveDistinctKeys items')
    (hnumbers : ∀ n, n ∈ items.map (·.itemNumber) ↔ n ∈ items'.map (·.itemNumber))
    (hcodes : ∀ n checkCode, codeIn? items n checkCode = codeIn? items' n checkCode)
    {entry : UInt32 × List (String × DecisionCode)} (hentry : entry ∈ listing items) :
    entry ∈ listing items' := by
  obtain ⟨n, keys⟩ := entry
  obtain ⟨i, hi, rfl, rfl⟩ := mem_listing.mp hentry
  obtain ⟨i', hi', hn⟩ := List.mem_map.mp ((hnumbers _).mp (List.mem_map_of_mem hi))
  refine mem_listing.mpr ⟨i', hi', hn, ?_⟩
  -- the items with this number have one table, and their keys ascend through it
  refine eq_of_ascending (fun _ _ => String.lt_asymm) (i'.checkKeys_ascend (h'.codes i' hi'))
    (i.checkKeys_ascend (h.codes i hi)) fun (checkCode, code) => ?_
  rw [mem_checkKeys_iff (h'.codes i' hi'), mem_checkKeys_iff (h.codes i hi),
    ← codeIn?_of_mem h' hi', ← codeIn?_of_mem h hi, hcodes, hn]

/-- Items with distinct keys are listed alike exactly if they have the same numbers and the same
table of codes. -/
theorem listing_eq_iff (h : HaveDistinctKeys items) (h' : HaveDistinctKeys items') :
    listing items = listing items' ↔
      (∀ n, n ∈ items.map (·.itemNumber) ↔ n ∈ items'.map (·.itemNumber)) ∧
        ∀ n checkCode, codeIn? items n checkCode = codeIn? items' n checkCode := by
  constructor
  · intro hlisting
    refine ⟨fun n => by rw [mem_map_number, mem_map_number, hlisting], fun n checkCode => ?_⟩
    refine Option.ext fun code => ?_
    rw [codeIn?_eq_some_iff h, codeIn?_eq_some_iff h', hlisting]
  · rintro ⟨hnumbers, hcodes⟩
    exact eq_of_ascending (fun _ _ => UInt32.lt_asymm) (listing_ascend h) (listing_ascend h')
      fun _ => ⟨mem_listing_of_same h h' hnumbers hcodes,
        mem_listing_of_same h' h (fun n => (hnumbers n).symm) fun n code => (hcodes n code).symm⟩

end Tables

/-! ### Another order -/

/-- The items in another order, each with its checks in another order. -/
def Reordered (items items' : List ItemDecision) : Prop :=
  ∃ moved, items.Perm moved ∧ List.Forall₂ (fun i i' : ItemDecision =>
    i.itemNumber = i'.itemNumber ∧ i.checks.Perm i'.checks) moved items'

section Order

variable {items items' : List ItemDecision}

theorem ItemDecision.checkKeys_of_perm {i i' : ItemDecision}
    (hcodes : (i.checks.map (·.checkCode)).Nodup) (h : i.checks.Perm i'.checks) :
    i.checkKeys = i'.checkKeys := by
  refine sortBy_eq_of_nodup isRanking_checkKeys
    (fun h h' => String.le_antisymm (of_decide_eq_true h) (of_decide_eq_true h')) ?_ (h.map _)
  rw [List.map_map]
  exact hcodes

/-- Where the keys are distinct, the order of items and checks is not listed. -/
theorem listing_reordered (hdistinct : HaveDistinctKeys items) (h : Reordered items items') :
    listing items = listing items' := by
  obtain ⟨moved, hperm, hchecks⟩ := h
  have hmoved : listing items = listing moved := by
    rw [listing, listing, sortBy_eq_of_nodup isRanking_itemLe
      (fun h h' => UInt32.le_antisymm (of_decide_eq_true h) (of_decide_eq_true h'))
      hdistinct.numbers hperm]
  have hcodes : ∀ i ∈ moved, (i.checks.map (·.checkCode)).Nodup := fun i hi =>
    hdistinct.codes i (hperm.mem_iff.mpr hi)
  rw [hmoved]
  exact listing_eq_of_forall₂ (((List.forall₂_and_left _ _).mpr ⟨hcodes, hchecks⟩).imp
    fun i i' ⟨hnodup, hn, hperm⟩ => ⟨hn, ItemDecision.checkKeys_of_perm hnodup hperm⟩)

end Order

/-- The items of a built decision are a table. -/
theorem haveDistinctKeys_build (now : Timestamp) (d : Declaration)
    (notifications : List Notification) (findings : List Finding) :
    HaveDistinctKeys (Decision.build now d notifications findings).items where
  numbers := (map_itemNumber_foldItems findings).symm ▸ nodup_distinct _
  codes _ hi := (map_checkCode_of_mem hi).symm ▸ nodup_distinct _

/-! ### The relation -/

/-- To exist is an equivalence, also where numbers and codes repeat. No items exist only in no
items, and other words change nothing. Where the keys are distinct, as they are in a built
decision, items exist in each other exactly if they have the same numbers and the same table of
decision codes, so their order and that of their checks changes nothing either. -/
theorem itemsExist_equivalence :
    (Equivalence fun a b : Option (List ItemDecision) => itemsExist a b = true) ∧
      (∀ a, itemsExist none a = true ↔ a = none) ∧
      (∀ a a' b b' : Option (List ItemDecision),
        Option.Rel (List.Forall₂ ItemDecision.Rewords) a a' →
        Option.Rel (List.Forall₂ ItemDecision.Rewords) b b' →
        itemsExist a' b' = itemsExist a b) ∧
      (∀ items items' : List ItemDecision, HaveDistinctKeys items → HaveDistinctKeys items' →
        (itemsExist (some items) (some items') = true ↔
          (∀ n, n ∈ items.map (·.itemNumber) ↔ n ∈ items'.map (·.itemNumber)) ∧
            ∀ n checkCode, codeIn? items n checkCode = codeIn? items' n checkCode)) ∧
      (∀ items items' : List ItemDecision, HaveDistinctKeys items → Reordered items items' →
        ∀ other, itemsExist (some items') other = itemsExist (some items) other) ∧
      ∀ (now : Timestamp) (d : Declaration) (notifications : List Notification)
        (findings : List Finding),
        HaveDistinctKeys (Decision.build now d notifications findings).items := by
  refine ⟨equivalence_of_key itemsExist_iff, fun a => ?_, fun a a' b b' ha hb => ?_,
    fun items items' h h' => ?_, fun items items' h hmoved other => ?_, haveDistinctKeys_build⟩
  · rw [itemsExist_iff, Option.map_none, eq_comm, Option.map_eq_none_iff]
  · rw [Bool.eq_iff_iff, itemsExist_iff, itemsExist_iff, map_listing_reworded ha,
      map_listing_reworded hb]
  · rw [itemsExist_iff, Option.map_some, Option.map_some, Option.some_inj, listing_eq_iff h h']
  · rw [Bool.eq_iff_iff, itemsExist_iff, itemsExist_iff, Option.map_some, Option.map_some,
      listing_reordered h hmoved]

/-- Two animals with two checks and one. -/
def cargo : List ItemDecision :=
  [⟨1, [⟨"H221", .c03, ["cleared"], []⟩, ⟨"H224", .x00, [], [.e70]⟩]⟩,
    ⟨2, [⟨"H221", .n04, ["refused"], []⟩]⟩]

/-- The same in another order. -/
def cargoTurned : List ItemDecision :=
  [⟨2, [⟨"H221", .n04, ["refused"], []⟩]⟩,
    ⟨1, [⟨"H224", .x00, [], [.e70]⟩, ⟨"H221", .c03, ["cleared"], []⟩]⟩]

/-- And in other words. -/
def cargoReworded : List ItemDecision :=
  [⟨2, [⟨"H221", .n04, [], [.e71]⟩]⟩,
    ⟨1, [⟨"H224", .x00, ["nothing linked", "held"], []⟩, ⟨"H221", .c03, [], []⟩]⟩]

/-- In another order and in other words, the items exist, and an answer is found all the same. -/
theorem cargo_exists :
    itemsExist (some cargo) (some cargoReworded) = true ∧
      codeIn? cargoTurned 1 "H224" = some .x00 := by
  obtain ⟨hequivalence, -, hwords, htable, horder, -⟩ := itemsExist_equivalence
  have hcargo : HaveDistinctKeys cargo := ⟨by decide, by decide⟩
  have hturned : HaveDistinctKeys cargoTurned := ⟨by decide, by decide⟩
  have hreordered : Reordered cargo cargoTurned :=
    ⟨cargo.reverse, (List.reverse_perm cargo).symm,
      .cons ⟨rfl, .refl _⟩ (.cons ⟨rfl, .swap _ _ _⟩ .nil)⟩
  have hsame : List.Forall₂ ItemDecision.Rewords cargo cargo := by
    simp [cargo, ItemDecision.Rewords]
  have hreworded : List.Forall₂ ItemDecision.Rewords cargoTurned cargoReworded := by
    simp [cargoTurned, cargoReworded, ItemDecision.Rewords]
  have hexist : itemsExist (some cargoTurned) (some cargo) = true :=
    (horder cargo cargoTurned hcargo hreordered (some cargo)).trans (hequivalence.refl _)
  constructor
  · exact (hwords (some cargo) (some cargo) (some cargoTurned) (some cargoReworded)
      (.some hsame) (.some hreworded)).trans (hequivalence.symm hexist)
  · exact (((htable cargoTurned cargo hturned hcargo).mp hexist).2 1 "H224").trans (by decide)

end BorderControl
