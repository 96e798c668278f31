/-!
# Sorted lists and tables

`sortBy` is a stable sort: entries of which neither comes before the other keep their
order. `distinct` lists the members of a list once each, ascending.

A `Table` holds one entry per key, keys ascending. `Table.insert` replaces the entry of
a key it already holds, and `get?_insert` says what a look-up finds afterwards.
-/

namespace BorderControl

/-! ## Sorting -/

/-- Puts `x` in front of the first entry that does not come before it. -/
def insertBy {α : Type} (le : α → α → Bool) (x : α) : List α → List α
  | [] => [x]
  | y :: ys => if le x y then x :: y :: ys else y :: insertBy le x ys

/-- The entries of the list in ascending order; entries that tie keep their order. -/
def sortBy {α : Type} (le : α → α → Bool) (xs : List α) : List α :=
  xs.foldr (insertBy le) []

/-- The members of the list, ascending and once each. -/
def distinct {α : Type} [DecidableEq α] (le : α → α → Bool) (xs : List α) : List α :=
  sortBy le xs.eraseDups

/-! ## Tables -/

/-- Puts `v` under the key `k` into a list with ascending keys. -/
def insertEntry {α : Type} (k : String) (v : α) : List (String × α) → List (String × α)
  | [] => [(k, v)]
  | e :: es =>
    if k < e.1 then (k, v) :: e :: es
    else if k = e.1 then (k, v) :: es
    else e :: insertEntry k v es

theorem mem_insertEntry {α : Type} {k : String} {v : α} {es : List (String × α)}
    {e : String × α} (h : e ∈ insertEntry k v es) : e = (k, v) ∨ e ∈ es := by
  induction es with
  | nil => simpa [insertEntry] using h
  | cons f es ih =>
    simp only [insertEntry] at h
    split at h
    · simpa using h
    · split at h
      · rcases List.mem_cons.mp h with h | h
        · exact .inl h
        · exact .inr (List.mem_cons_of_mem _ h)
      · rcases List.mem_cons.mp h with h | h
        · exact .inr (h ▸ List.mem_cons_self)
        · exact (ih h).imp_right (List.mem_cons_of_mem _)

/-- Keys ascend strictly. -/
def Ascending {α : Type} (es : List (String × α)) : Prop :=
  es.Pairwise fun a b => a.1 < b.1

theorem Ascending.insertEntry {α : Type} (k : String) (v : α) {es : List (String × α)}
    (h : Ascending es) : Ascending (insertEntry k v es) := by
  induction es with
  | nil => simp [BorderControl.insertEntry, Ascending]
  | cons f es ih =>
    have hf := List.pairwise_cons.mp h
    simp only [BorderControl.insertEntry]
    split
    · next hlt =>
      refine List.pairwise_cons.mpr ⟨fun e he => ?_, h⟩
      rcases List.mem_cons.mp he with rfl | he
      · exact hlt
      · exact String.lt_trans hlt (hf.1 e he)
    · next hnlt =>
      split
      · next heq => exact List.pairwise_cons.mpr ⟨fun e he => heq ▸ hf.1 e he, hf.2⟩
      · next hne =>
        refine List.pairwise_cons.mpr ⟨fun e he => ?_, ih hf.2⟩
        rcases mem_insertEntry he with rfl | he
        · exact Decidable.byContradiction fun hgt =>
            hne (String.le_antisymm (String.not_lt.mp hgt) (String.not_lt.mp hnlt))
        · exact hf.1 e he

/-- One entry per key, keys ascending. -/
structure Table (α : Type) where
  entries : List (String × α)
  ascending : Ascending entries

namespace Table

variable {α : Type}

def empty : Table α := ⟨[], List.Pairwise.nil⟩

/-- The entry under the key `k`. -/
def get? (t : Table α) (k : String) : Option α :=
  (t.entries.find? fun e => e.1 == k).map Prod.snd

/-- Puts `v` under the key `k`, in place of what was there. -/
def insert (t : Table α) (k : String) (v : α) : Table α :=
  ⟨insertEntry k v t.entries, t.ascending.insertEntry k v⟩

/-- The entries without their keys, in the order of the keys. -/
def values (t : Table α) : List α := t.entries.map Prod.snd

@[simp] theorem get?_empty (k : String) : (empty : Table α).get? k = none := rfl

/-- After an insertion the key holds the new entry and every other key what it held. -/
theorem get?_insert (t : Table α) (k k' : String) (v : α) :
    (t.insert k v).get? k' = if k = k' then some v else t.get? k' := by
  obtain ⟨es, hes⟩ := t
  simp only [get?, insert]
  clear hes
  induction es with
  | nil => by_cases h : k = k' <;> simp [insertEntry, h]
  | cons e es ih =>
    simp only [insertEntry]
    split
    · by_cases h : k = k' <;> simp [List.find?_cons, h]
    · split
      · next heq =>
        by_cases h : k = k'
        · simp [h]
        · have : e.1 ≠ k' := heq ▸ h
          simp [h, this]
      · next hne =>
        by_cases h : e.1 = k'
        · have : k ≠ k' := fun hk => hne (hk.trans h.symm)
          simp [h, this]
        · simp [h, ih]

end Table

end BorderControl
