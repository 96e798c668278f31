import BorderControl.Proofs.Grouping
import BorderControl.Proofs.History
import BorderControl.Proofs.StoreFile

/-!
# Snapshots of a store

`Store.toDossier` puts into one dossier what a store holds declaration by declaration. A
declaration stands under its own MRN, from its insertion on and through all writes
(`Store.Keyed.after`), so the declarations come in the order of their MRNs
(`Store.map_mrn_toDossier`). The notifications are gone through in that order, and of those
with one reference the first is kept (`Store.find?_of_mem_firstByReference`).

`Snapshot` says what a dossier has to show of a store and its past. There is one such dossier
(`Snapshot.unique`). Such a dossier is what is held by a store of it
(`Store.toDossier_ofDossier`), though that links every notification to every declaration.
`Opening.snapshot` puts this together for every history.
-/

namespace BorderControl

/-! ## Notifications in the order in which they are met -/

namespace Store

theorem map_reference_firstByReference : ∀ (ns : List Notification) (seen : List String),
    (firstByReference seen ns).map (·.reference) =
      ((ns.map (·.reference)).filter (· ∉ seen)).eraseDups
  | [], _ => rfl
  | n :: ns, seen => by
    rw [firstByReference, List.map_cons]
    by_cases hn : n.reference ∈ seen
    · rw [if_pos hn, List.filter_cons_of_neg (by simpa using hn),
        map_reference_firstByReference ns seen]
    · have hrest : ((ns.map (·.reference)).filter (· ∉ seen)).filter (fun r => !r == n.reference) =
          (ns.map (·.reference)).filter (· ∉ n.reference :: seen) := by
        rw [List.filter_filter]
        exact List.filter_congr fun r _ => by simp [beq_eq_decide]
      rw [if_neg hn, List.filter_cons_of_pos (by simpa using hn), List.eraseDups_cons, hrest,
        List.map_cons, map_reference_firstByReference ns (n.reference :: seen)]

/-- What is kept is the first of its reference. -/
theorem find?_of_mem_firstByReference {n : Notification} :
    ∀ {ns : List Notification} {seen : List String}, n ∈ firstByReference seen ns →
      ns.find? (·.reference == n.reference) = some n
  | m :: ns, seen, h => by
    have hkept := notMem_of_mem_firstByReference h
    rw [firstByReference] at h
    split at h
    · next hm =>
      have hne : m.reference ≠ n.reference := fun heq => hkept (heq ▸ hm)
      rw [List.find?_cons_of_neg (by simpa using hne), find?_of_mem_firstByReference h]
    · rcases List.mem_cons.mp h with rfl | h
      · exact List.find?_cons_of_pos (beq_self_eq_true _)
      · have hne : m.reference ≠ n.reference := fun heq =>
          notMem_of_mem_firstByReference h (heq ▸ List.mem_cons_self)
        rw [List.find?_cons_of_neg (by simpa using hne), find?_of_mem_firstByReference h]

/-! ## Declarations under their own MRN -/

/-- Every declaration is held under its MRN. -/
def Keyed (s : Store) : Prop := ∀ mrn h, s.holdings.get? mrn = some h → h.declaration.mrn = mrn

theorem Keyed.apply {s : Store} (hs : s.Keyed) (op : Operation) : (s.apply op).Keyed := by
  intro mrn h hheld
  cases op with
  | insert d notifications =>
    rw [Store.apply, insert, Table.get?_insert] at hheld
    split at hheld
    · next hmrn =>
      obtain rfl := Option.some.inj hheld
      exact hmrn
    · exact hs mrn h hheld
  | write mrn' d expected =>
    obtain ⟨h', hheld', -, heq⟩ | ⟨h', -, -, heq⟩ | ⟨-, heq⟩ := write_cases s mrn' d expected
    · rw [Store.apply, heq, Table.get?_insert] at hheld
      split at hheld
      · next hmrn =>
        obtain rfl := Option.some.inj hheld
        exact (hs mrn' h' hheld').trans hmrn
      · exact hs mrn h hheld
    · rw [Store.apply, heq] at hheld
      exact hs mrn h hheld
    · rw [Store.apply, heq] at hheld
      exact hs mrn h hheld

theorem Keyed.after {s : Store} (hs : s.Keyed) (ops : List Operation) : (s.after ops).Keyed := by
  induction ops generalizing s with
  | nil => exact hs
  | cons op ops ih => exact ih (hs.apply op)

theorem keyed_after_empty (history : List Operation) : (Store.empty.after history).Keyed :=
  Keyed.after (fun _ _ hheld => by cases hheld) history

section Keyed

variable {s : Store}

theorem map_mrn_toDossier (hs : s.Keyed) :
    s.toDossier.declarations.map (·.mrn) = s.holdings.keys := by
  rw [toDossier, Table.values, List.map_map, List.map_map]
  exact List.map_congr_left fun e he => hs e.1 e.2 (Table.get?_of_mem he)

/-- The notifications are met declaration by declaration. -/
theorem flatMap_notifications_values (hs : s.Keyed) :
    s.holdings.values.flatMap (·.notifications) =
      s.toDossier.declarations.flatMap fun d => s.list d.mrn := by
  rw [toDossier, Table.values, List.flatMap_map, List.map_map, List.flatMap_map]
  refine List.flatMap_congr fun e he => ?_
  have hget := Table.get?_of_mem he
  have hmrn : e.2.declaration.mrn = e.1 := hs e.1 e.2 hget
  simp only [Function.comp_apply, list, hmrn, hget]

theorem get?_of_fetch {mrn : String} {record : DeclarationRecord}
    (h : s.fetch mrn = .ok record) : ∃ held, s.holdings.get? mrn = some held ∧
      record = ⟨held.declaration, held.declaration.marker?⟩ := by
  rw [fetch] at h
  split at h
  · next held hheld => exact ⟨held, hheld, (Except.ok.inj h).symm⟩
  · cases h

theorem mem_toDossier {d : Declaration} : d ∈ s.toDossier.declarations ↔
    ∃ mrn held, s.holdings.get? mrn = some held ∧ held.declaration = d := by
  rw [toDossier, Table.values_eq]
  simp only [List.mem_map, List.mem_filterMap, Table.mem_keys]
  constructor
  · rintro ⟨held, ⟨mrn, -, hheld⟩, rfl⟩
    exact ⟨mrn, held, hheld, rfl⟩
  · rintro ⟨mrn, held, hheld, rfl⟩
    exact ⟨held, ⟨mrn, by rw [hheld]; rfl, hheld⟩, rfl⟩

end Keyed

/-- A declaration that was inserted and not replaced is held with the decision written last. -/
theorem get?_after_insert (before since : List Operation) (d : Declaration)
    (notifications : List Notification) (hsince : ∀ op ∈ since, ¬ op.Inserts d.mrn) :
    (Store.empty.after (before ++ .insert d notifications :: since)).holdings.get? d.mrn =
      some ⟨d.withDecision (latest d.decision
        ((Store.empty.after (before ++ [.insert d notifications])).acceptedFor d.mrn since)),
        notifications⟩ := by
  have hheld : (Store.empty.after (before ++ [.insert d notifications])).holdings.get? d.mrn =
      some ⟨d, notifications⟩ := by
    rw [after_append]
    exact (Table.get?_insert ..).trans (if_pos rfl)
  rw [List.append_cons, after_append]
  exact (after_of_held hheld hsince).1

end Store

/-! ## Snapshots -/

/-- The notifications that a store links to the declarations of the dossier, in order. -/
def Dossier.linkedIn (dossier : Dossier) (s : Store) : List Notification :=
  dossier.declarations.flatMap fun d => s.list d.mrn

/-- What the dossier shows of a store with the given history. -/
structure Snapshot (history : List Operation) (s : Store) (dossier : Dossier) : Prop where
  /-- No MRN stands twice. -/
  ascend : (dossier.declarations.map (·.mrn)).Pairwise
    fun a b => a.toUTF8.toList < b.toUTF8.toList
  /-- Declarations are listed as they are fetched. -/
  fetched : ∀ d ∈ dossier.declarations, s.fetch d.mrn = .ok ⟨d, d.marker?⟩
  listed : ∀ mrn record, s.fetch mrn = .ok record →
    record.declaration ∈ dossier.declarations ∧ record.declaration.mrn = mrn
  /-- A declaration is listed as it was inserted last, with the decision written last. -/
  current : ∀ before d notifications since,
    history = before ++ .insert d notifications :: since →
    (∀ op ∈ since, ¬ op.Inserts d.mrn) →
    d.withDecision (latest d.decision
      ((Store.empty.after (before ++ [.insert d notifications])).acceptedFor d.mrn since)) ∈
        dossier.declarations
  /-- All references that are linked stand once each, in the order in which they are met. -/
  references : FirstAppearances ((dossier.linkedIn s).map (·.reference))
    (dossier.notifications.map (·.reference))
  /-- Every notification is the first that is met of its reference. -/
  first : ∀ n ∈ dossier.notifications,
    (dossier.linkedIn s).find? (·.reference == n.reference) = some n

namespace Snapshot

variable {history : List Operation} {s : Store} {dossier dossier' : Dossier}

theorem mem_mrns (h : Snapshot history s dossier) (mrn : String) :
    mrn ∈ dossier.declarations.map (·.mrn) ↔ ∃ record, s.fetch mrn = .ok record := by
  constructor
  · intro hmrn
    obtain ⟨d, hd, rfl⟩ := List.mem_map.mp hmrn
    exact ⟨_, h.fetched d hd⟩
  · rintro ⟨record, hrecord⟩
    obtain ⟨hlisted, rfl⟩ := h.listed mrn record hrecord
    exact List.mem_map_of_mem hlisted

/-- A store has one snapshot. -/
theorem unique (h : Snapshot history s dossier) (h' : Snapshot history s dossier') :
    dossier = dossier' := by
  have hmrns : dossier.declarations.map (·.mrn) = dossier'.declarations.map (·.mrn) :=
    eq_of_ascending (fun _ _ => List.lt_asymm) h.ascend h'.ascend fun mrn =>
      (h.mem_mrns mrn).trans (h'.mem_mrns mrn).symm
  have hdeclarations : dossier.declarations = dossier'.declarations :=
    eq_of_map_key hmrns fun d hd d' hd' hmrn => by
      have hfetched := h.fetched d hd
      rw [hmrn, h'.fetched d' hd', Except.ok.injEq, DeclarationRecord.mk.injEq] at hfetched
      exact hfetched.1.symm
  have hlinked : dossier.linkedIn s = dossier'.linkedIn s := by
    rw [Dossier.linkedIn, Dossier.linkedIn, hdeclarations]
  have hreferences := h.references.unique (hlinked ▸ h'.references)
  have hnotifications : dossier.notifications = dossier'.notifications :=
    eq_of_map_key hreferences fun n hn n' hn' hreference => by
      have hfirst := h.first n hn
      rw [hreference, hlinked, h'.first n' hn', Option.some.injEq] at hfirst
      exact hfirst.symm
  rw [Dossier.mk.injEq]
  exact ⟨hdeclarations, hnotifications⟩

end Snapshot

namespace Store

/-- What a store puts together after its history is its snapshot. -/
theorem snapshot_toDossier (history : List Operation) :
    Snapshot history (Store.empty.after history) (Store.empty.after history).toDossier := by
  have hkeyed := keyed_after_empty history
  generalize hs : Store.empty.after history = s at hkeyed
  have hmet : s.toDossier.linkedIn s = s.holdings.values.flatMap (·.notifications) :=
    (flatMap_notifications_values hkeyed).symm
  constructor
  case ascend =>
    rw [map_mrn_toDossier hkeyed]
    exact s.holdings.pairwise_keys.imp Text.toUTF8_lt_of_lt
  case fetched =>
    intro d hd
    obtain ⟨mrn, held, hheld, rfl⟩ := mem_toDossier.mp hd
    rw [hkeyed mrn held hheld]
    exact fetch_of_held hheld
  case listed =>
    intro mrn record hrecord
    obtain ⟨held, hheld, rfl⟩ := get?_of_fetch hrecord
    exact ⟨mem_toDossier.mpr ⟨mrn, held, hheld, rfl⟩, hkeyed mrn held hheld⟩
  case current =>
    rintro before d notifications since rfl hsince
    have hheld := get?_after_insert before since d notifications hsince
    rw [hs] at hheld
    exact mem_toDossier.mpr ⟨_, _, hheld, rfl⟩
  case references =>
    have hkept : s.toDossier.notifications.map (·.reference) =
        ((s.toDossier.linkedIn s).map (·.reference)).eraseDups := by
      have hmap := map_reference_firstByReference (s.holdings.values.flatMap (·.notifications)) []
      rwa [List.filter_eq_self.mpr fun r _ => by simp, ← congrArg (List.map _) hmet] at hmap
    rw [hkept]
    exact firstAppearances_eraseDups _
  case first =>
    intro n hn
    rw [hmet]
    exact find?_of_mem_firstByReference hn

/-- A dossier comes back from a store of it if its declarations are in order and no reference
stands twice. -/
theorem toDossier_ofDossier {dossier : Dossier}
    (hmrns : (dossier.declarations.map (·.mrn)).Pairwise (· < ·))
    (hreferences : (dossier.notifications.map (·.reference)).Nodup)
    (hnone : dossier.declarations = [] → dossier.notifications = []) :
    (ofDossier dossier).toDossier = dossier := by
  by_cases hne : dossier.declarations = []
  · obtain ⟨declarations, notifications⟩ := dossier
    obtain rfl : declarations = [] := hne
    obtain rfl : notifications = [] := hnone rfl
    rfl
  have hnodup : (dossier.declarations.map (·.mrn)).Nodup := hmrns.imp String.ne_of_lt
  have hkeys : distinct (fun a b => a ≤ b) (dossier.declarations.map (·.mrn)) =
      dossier.declarations.map (·.mrn) := by
    have hascend := (pairwise_distinct isRanking_string (dossier.declarations.map (·.mrn))).imp
      fun {a b} ⟨hle, hne⟩ => String.not_le.mp fun hge =>
        hne (String.le_antisymm (of_decide_eq_true hle) hge)
    exact eq_of_ascending (fun _ _ => String.lt_asymm) hascend hmrns fun _ => mem_distinct
  rw [toDossier_eq (fun m => get?_ofDossier) (fun m => Dossier.isSome_held?)
    (mt List.map_eq_nil_iff.mp hne), hkeys,
    firstByReference_of_nodup hreferences fun _ _ => List.not_mem_nil]
  have hheld : (dossier.declarations.map (·.mrn)).filterMap dossier.held? =
      dossier.declarations := by
    rw [List.filterMap_map]
    refine (List.filterMap_congr fun d hd => ?_).trans List.filterMap_some
    exact Dossier.held?_of_nodup hnodup hd
  rw [hheld]

theorem toDossier_toDossier {s : Store} (hs : s.Keyed) :
    (ofDossier s.toDossier).toDossier = s.toDossier := by
  refine toDossier_ofDossier ?_ (nodup_firstByReference [] _) fun hnone => ?_
  · rw [map_mrn_toDossier hs]
    exact s.holdings.pairwise_keys
  · have hvalues : s.holdings.values = [] := List.map_eq_nil_iff.mp hnone
    rw [toDossier, hvalues]
    rfl

end Store

/-- Whatever happens to a store from its opening on, what it holds in the end is shown by one
dossier, and that is the one that it puts together. The declarations stand there once each, in
the order of the bytes of their MRNs and with the decision written last, and the notifications
once for each reference, the first that is met. A store of this dossier gives it back. -/
theorem Opening.snapshot (o : Opening) (ops : List Operation) :
    Snapshot (o.inserts ++ ops) (o.store.after ops) (o.store.after ops).toDossier ∧
      (∀ dossier, Snapshot (o.inserts ++ ops) (o.store.after ops) dossier →
        dossier = (o.store.after ops).toDossier) ∧
      (Store.ofDossier (o.store.after ops).toDossier).toDossier =
        (o.store.after ops).toDossier := by
  rw [o.store_eq, ← Store.after_append]
  generalize o.inserts ++ ops = history
  have hsnapshot := Store.snapshot_toDossier history
  exact ⟨hsnapshot, fun dossier h => h.unique hsnapshot,
    Store.toDossier_toDossier (Store.keyed_after_empty history)⟩

/-- Of two versions of a notification the one counts that is linked to the lower MRN, whichever
was inserted first. -/
example : (Store.empty.after [.insert horsesDeclared [horsesNotified 1],
      .insert { horsesDeclared with mrn := "25GB0000000000011" } [horsesNotified 2]]).toDossier =
    ⟨[{ horsesDeclared with mrn := "25GB0000000000011" }, horsesDeclared], [horsesNotified 2]⟩ := by
  decide +kernel

end BorderControl
