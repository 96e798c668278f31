import BorderControl.Sorted
import Mathlib.Data.List.Sort
import Mathlib.Data.List.Forall2

/-!
# Stable sorting

`sortBy` is insertion sort (`sortBy_eq_insertionSort`), so its result holds the entries
of the list and, for an order that ranks any two of them (`IsRanking`), is ascending.
Being stable, it can be narrowed to some of the entries before or after
(`filter_sortBy`), and lists whose entries at each place are alike in rank stay alike
(`forall₂_sortBy`). Sorted by a key that no two entries share, reordered lists become one list
(`sortBy_eq_of_nodup`), and their keys ascend strictly (`pairwise_sortBy_of_nodup`).

`distinct` depends on which members a list has, and on nothing else
(`distinct_eq_of_mem_iff`). `List.eraseDups` keeps the members in the order in which they
first appear (`firstAppearances_eraseDups`), which is only one list
(`FirstAppearances.unique`).
-/

namespace BorderControl

variable {α : Type} {le : α → α → Bool}

/-- Any two entries can be compared, and comparisons carry over. -/
structure IsRanking (le : α → α → Bool) : Prop where
  total : ∀ a b, le a b = true ∨ le b a = true
  trans : ∀ {a b c}, le a b = true → le b c = true → le a c = true

/-- Entries are ranked by what they show, if that is ranked. -/
theorem IsRanking.comap {β : Type} (h : IsRanking le) (f : β → α) :
    IsRanking fun a b => le (f a) (f b) where
  total a b := h.total (f a) (f b)
  trans := h.trans

/-! ## Insertion sort -/

theorem insertBy_eq_orderedInsert (x : α) :
    ∀ xs : List α, insertBy le x xs = xs.orderedInsert (fun a b => le a b = true) x
  | [] => rfl
  | y :: ys => by
    rw [insertBy, List.orderedInsert_cons, insertBy_eq_orderedInsert x ys]

theorem sortBy_eq_insertionSort :
    ∀ xs : List α, sortBy le xs = xs.insertionSort (fun a b => le a b = true)
  | [] => rfl
  | x :: xs => by
    rw [List.insertionSort_cons, ← sortBy_eq_insertionSort xs, ← insertBy_eq_orderedInsert]
    rfl

theorem sortBy_cons (x : α) (xs : List α) :
    sortBy le (x :: xs) = insertBy le x (sortBy le xs) := rfl

theorem perm_sortBy (le : α → α → Bool) (xs : List α) : (sortBy le xs).Perm xs := by
  rw [sortBy_eq_insertionSort]
  exact List.perm_insertionSort _ xs

theorem eq_nil_iff_of_perm {xs ys : List α} (h : xs.Perm ys) : xs = [] ↔ ys = [] :=
  ⟨fun hxs => (hxs ▸ h).nil_eq.symm, fun hys => (hys ▸ h).eq_nil⟩

theorem pairwise_sortBy (h : IsRanking le) (xs : List α) :
    (sortBy le xs).Pairwise fun a b => le a b = true := by
  have : Std.Total fun a b => le a b = true := ⟨h.total⟩
  have : IsTrans α fun a b => le a b = true := ⟨fun _ _ _ => h.trans⟩
  rw [sortBy_eq_insertionSort]
  exact List.pairwise_insertionSort _ xs

/-- An ascending list stays as it is. -/
theorem sortBy_of_pairwise {xs : List α} (h : xs.Pairwise fun a b => le a b = true) :
    sortBy le xs = xs := by
  rw [sortBy_eq_insertionSort]
  exact h.insertionSort_eq

/-- Lists with the same entries have one ascending form, if only equal entries tie. -/
theorem sortBy_eq_of_perm {xs ys : List α} (h : IsRanking le)
    (hanti : ∀ a ∈ xs, ∀ b ∈ xs, le a b = true → le b a = true → a = b) (hp : xs.Perm ys) :
    sortBy le xs = sortBy le ys := by
  refine List.Perm.eq_of_pairwise (fun a b ha hb => ?_) (pairwise_sortBy h xs)
    (pairwise_sortBy h ys) ((perm_sortBy le xs).trans (hp.trans (perm_sortBy le ys).symm))
  exact hanti a ((perm_sortBy le xs).mem_iff.mp ha) b
    (hp.mem_iff.mpr ((perm_sortBy le ys).mem_iff.mp hb))

/-- So lists have where no two entries share a key, if entries that tie do. -/
theorem sortBy_eq_of_nodup {κ : Type} {key : α → κ} {xs ys : List α} (h : IsRanking le)
    (hanti : ∀ {a b}, le a b = true → le b a = true → key a = key b)
    (hnodup : (xs.map key).Nodup) (hp : xs.Perm ys) : sortBy le xs = sortBy le ys :=
  sortBy_eq_of_perm h (fun _ ha _ hb hab hba =>
    List.inj_on_of_nodup_map hnodup ha hb (hanti hab hba)) hp

/-- Sorted by keys that are distinct, entries ascend strictly. -/
theorem pairwise_sortBy_of_nodup {κ : Type} [LT κ] {key : α → κ} {xs : List α} (h : IsRanking le)
    (hlt : ∀ {a b}, le a b = true → key a ≠ key b → key a < key b)
    (hnodup : (xs.map key).Nodup) : (sortBy le xs).Pairwise fun a b => key a < key b := by
  have hsorted : ((sortBy le xs).map key).Nodup :=
    ((perm_sortBy le xs).map key).nodup_iff.mpr hnodup
  exact ((pairwise_sortBy h xs).and (List.pairwise_map.mp hsorted)).imp fun h => hlt h.1 h.2

theorem filter_insertBy (h : IsRanking le) (p : α → Bool) (x : α) :
    ∀ {xs : List α}, (xs.Pairwise fun a b => le a b = true) →
      (insertBy le x xs).filter p =
        if p x then insertBy le x (xs.filter p) else xs.filter p
  | [], _ => by
    by_cases hx : p x = true <;> simp [insertBy, hx]
  | y :: ys, hs => by
    have hrest := List.pairwise_cons.mp hs
    have ih := filter_insertBy h p x hrest.2
    rw [insertBy]
    by_cases hxy : le x y = true
    · rw [if_pos hxy]
      by_cases hx : p x = true
      · -- `x` comes before all entries, so also before those that are kept
        have hall : ∀ z ∈ (y :: ys).filter p, le x z = true := by
          intro z hz
          rcases List.mem_cons.mp (List.mem_filter.mp hz).1 with rfl | hz
          · exact hxy
          · exact h.trans hxy (hrest.1 z hz)
        rw [List.filter_cons_of_pos hx, if_pos hx]
        cases hk : (y :: ys).filter p with
        | nil => rfl
        | cons z zs => rw [insertBy, if_pos (hall z (hk ▸ List.mem_cons_self))]
      · rw [List.filter_cons_of_neg hx, if_neg hx]
    · rw [if_neg hxy]
      by_cases hy : p y = true
      · rw [List.filter_cons_of_pos hy, List.filter_cons_of_pos hy, ih]
        split
        · rw [insertBy, if_neg hxy]
        · rfl
      · rw [List.filter_cons_of_neg hy, List.filter_cons_of_neg hy, ih]

/-- To sort and then keep some entries is to keep them and then sort. -/
theorem filter_sortBy (h : IsRanking le) (p : α → Bool) :
    ∀ xs : List α, (sortBy le xs).filter p = sortBy le (xs.filter p)
  | [] => rfl
  | x :: xs => by
    rw [sortBy_cons, filter_insertBy h p x (pairwise_sortBy h xs), filter_sortBy h p xs]
    by_cases hx : p x = true
    · rw [if_pos hx, List.filter_cons_of_pos hx, sortBy_cons]
    · rw [if_neg hx, List.filter_cons_of_neg hx]

/-- Lists that are alike at each place are so after sorting, if alike entries rank alike. -/
theorem forall₂_sortBy {β : Type} {le' : β → β → Bool} {R : α → β → Prop}
    (hR : ∀ {a a' b b'}, R a b → R a' b' → le a a' = le' b b') {xs : List α} {ys : List β}
    (h : List.Forall₂ R xs ys) : List.Forall₂ R (sortBy le xs) (sortBy le' ys) := by
  have insert : ∀ {x y xs ys}, R x y → List.Forall₂ R xs ys →
      List.Forall₂ R (insertBy le x xs) (insertBy le' y ys) := by
    intro x y xs ys hxy h
    induction h with
    | nil => exact .cons hxy .nil
    | cons hab hrest ih =>
      rw [insertBy, insertBy, hR hxy hab]
      split
      · exact .cons hxy (.cons hab hrest)
      · exact .cons hab ih
  induction h with
  | nil => exact .nil
  | cons hab _ ih => exact insert hab ih

/-- Lists show the same exactly if they do so place by place. -/
theorem map_eq_map_iff_forall₂ {β κ : Type} {f : α → κ} {g : β → κ} {xs : List α} {ys : List β} :
    xs.map f = ys.map g ↔ List.Forall₂ (fun x y => f x = g y) xs ys := by
  rw [← List.forall₂_eq_eq_eq, List.forall₂_map_left_iff, List.forall₂_map_right_iff]

/-! ## Distinct members -/

section Distinct

variable [DecidableEq α]

theorem nodup_eraseDups : ∀ xs : List α, xs.eraseDups.Nodup
  | [] => List.nodup_nil
  | x :: xs => by
    rw [List.eraseDups_cons]
    refine List.nodup_cons.mpr ⟨fun hx => ?_, nodup_eraseDups _⟩
    simpa using (List.mem_filter.mp (List.mem_eraseDups.mp hx)).2
termination_by xs => xs.length
decreasing_by
  rw [List.length_cons, Nat.lt_succ_iff]
  exact List.length_filter_le _ xs

theorem mem_distinct {xs : List α} {a : α} : a ∈ distinct le xs ↔ a ∈ xs := by
  rw [distinct, (perm_sortBy le _).mem_iff, List.mem_eraseDups]

theorem nodup_distinct (xs : List α) : (distinct le xs).Nodup :=
  (perm_sortBy le _).nodup_iff.mpr (nodup_eraseDups xs)

theorem distinct_eq_of_mem_iff (h : IsRanking le)
    (hanti : ∀ a b, le a b = true → le b a = true → a = b) {xs ys : List α}
    (hmem : ∀ a, a ∈ xs ↔ a ∈ ys) : distinct le xs = distinct le ys :=
  sortBy_eq_of_perm h (fun a _ b _ => hanti a b) ((List.perm_ext_iff_of_nodup (nodup_eraseDups xs)
    (nodup_eraseDups ys)).mpr fun a => by rw [List.mem_eraseDups, List.mem_eraseDups, hmem])

/-- The members ascend strictly. -/
theorem pairwise_distinct (h : IsRanking le) (xs : List α) :
    (distinct le xs).Pairwise fun a b => le a b = true ∧ a ≠ b :=
  (pairwise_sortBy h _).and (nodup_distinct xs)

end Distinct

/-- Lists that ascend strictly are equal if they have the same members. -/
theorem eq_of_ascending [DecidableEq α] {R : α → α → Prop} (hasymm : ∀ a b, R a b → ¬ R b a)
    {xs ys : List α} (hxs : xs.Pairwise R) (hys : ys.Pairwise R) (hmem : ∀ a, a ∈ xs ↔ a ∈ ys) :
    xs = ys := by
  have hne : ∀ {a b}, R a b → a ≠ b := by
    rintro a b hab rfl
    exact hasymm a a hab hab
  exact List.Perm.eq_of_pairwise (fun a b _ _ hab hba => absurd hba (hasymm a b hab)) hxs hys
    ((List.perm_ext_iff_of_nodup (hxs.imp hne) (hys.imp hne)).mpr hmem)

/-! ## First appearances -/

section FirstAppearances

variable [DecidableEq α]

/-- The second list has the members of the first one, once each, in the order in which they
first appear there. -/
structure FirstAppearances (xs ys : List α) : Prop where
  mem_iff : ∀ a, a ∈ ys ↔ a ∈ xs
  ascend : ys.Pairwise fun a b => xs.idxOf a < xs.idxOf b

theorem FirstAppearances.unique {xs ys zs : List α} (hys : FirstAppearances xs ys)
    (hzs : FirstAppearances xs zs) : ys = zs :=
  eq_of_ascending (fun _ _ => Nat.lt_asymm) hys.ascend hzs.ascend fun a =>
    (hys.mem_iff a).trans (hzs.mem_iff a).symm

/-- Entries that are kept keep their order of appearance. -/
theorem idxOf_filter_lt {p : α → Bool} {a b : α} (ha : p a = true) (hb : p b = true) :
    ∀ xs : List α, (xs.filter p).idxOf a < (xs.filter p).idxOf b ↔ xs.idxOf a < xs.idxOf b
  | [] => Iff.rfl
  | x :: xs => by
    have ih := idxOf_filter_lt ha hb xs
    by_cases hx : p x = true
    · rw [List.filter_cons_of_pos hx]
      by_cases hxb : x = b
      · simp [hxb]
      by_cases hxa : x = a
      · simp [hxa, List.idxOf_cons_ne _ (hxa ▸ hxb)]
      · simpa [List.idxOf_cons_ne _ hxa, List.idxOf_cons_ne _ hxb] using ih
    · have hxa : x ≠ a := fun h => hx (h ▸ ha)
      have hxb : x ≠ b := fun h => hx (h ▸ hb)
      simpa [List.filter_cons_of_neg hx, List.idxOf_cons_ne _ hxa, List.idxOf_cons_ne _ hxb]
        using ih

theorem firstAppearances_eraseDups : ∀ xs : List α, FirstAppearances xs xs.eraseDups
  | [] => ⟨fun _ => Iff.rfl, List.Pairwise.nil⟩
  | x :: xs => by
    have ih := firstAppearances_eraseDups (xs.filter fun a => !a == x)
    refine ⟨fun a => List.mem_eraseDups, ?_⟩
    -- the entries behind the head are not the head, so they appear behind it
    have hrest : ∀ a ∈ (xs.filter fun a => !a == x).eraseDups, (!a == x) = true := fun a ha =>
      (List.mem_filter.mp (List.mem_eraseDups.mp ha)).2
    have hidx : ∀ {a}, (!a == x) = true → (x :: xs).idxOf a = xs.idxOf a + 1 := fun ha =>
      List.idxOf_cons_ne _ fun h => by simp [h] at ha
    rw [List.eraseDups_cons]
    refine List.pairwise_cons.mpr ⟨fun a ha => ?_, ih.ascend.imp_of_mem fun {a b} ha hb hab => ?_⟩
    · rw [List.idxOf_cons_self, hidx (hrest a ha)]
      exact Nat.succ_pos _
    · rw [hidx (hrest a ha), hidx (hrest b hb)]
      exact Nat.succ_lt_succ
        ((idxOf_filter_lt (p := fun a => !a == x) (hrest a ha) (hrest b hb) xs).mp hab)
termination_by xs => xs.length
decreasing_by
  rw [List.length_cons, Nat.lt_succ_iff]
  exact List.length_filter_le _ xs

end FirstAppearances

end BorderControl
