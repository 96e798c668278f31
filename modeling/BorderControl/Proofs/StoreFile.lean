import BorderControl.CommandLine
import BorderControl.Proofs.Folding
import BorderControl.Proofs.Interleaving
import BorderControl.Proofs.Rereading

/-!
# The file that a sync saves

A sync with writing loads a dossier into a store, writes at most one decision there and saves
what the store holds. The store keeps declarations by their MRN, so of several with one MRN
the last is held (`Dossier.held?`), and it gives notifications back once for each reference,
the first of them (`Store.firstByReference`). `Dossier.afterWrite` is the dossier that is left
over, and the file that is saved reads back as that dossier (`CommandLine.syncFile_eq`).

So a file keeps all its declarations exactly if no two have one MRN, and all its
notifications exactly if no two have one reference (`CommandLine.saved_file`). Nothing in a
dossier asks for either: two versions of a notification make one that is loaded, and the
second version is gone from the file (`CommandLine.second_version_lost`).
-/

namespace BorderControl

/-! ## Tables by their keys -/

namespace Table

variable {α : Type}

def keys (t : Table α) : List String := t.entries.map Prod.fst

theorem pairwise_keys (t : Table α) : t.keys.Pairwise (· < ·) :=
  List.pairwise_map.mpr t.ascending

theorem nodup_keys (t : Table α) : t.keys.Nodup := by
  refine t.pairwise_keys.imp ?_
  rintro a b hlt rfl
  exact String.lt_irrefl a hlt

theorem mem_keys {t : Table α} {k : String} : k ∈ t.keys ↔ (t.get? k).isSome = true := by
  simp [keys, get?]

/-- An entry is what its key holds. -/
theorem get?_of_mem {t : Table α} {e : String × α} (h : e ∈ t.entries) :
    t.get? e.1 = some e.2 := by
  rw [get?, find?_key_of_mem t.nodup_keys h, Option.map_some]

/-- The entries are those of the keys, in their order. -/
theorem values_eq (t : Table α) : t.values = t.keys.filterMap t.get? := by
  rw [keys, List.filterMap_map, values, ← List.filterMap_eq_map]
  exact List.filterMap_congr fun e he => (get?_of_mem he).symm

/-- The keys of a table are the names it has an entry for, ascending and once each. -/
theorem keys_eq_distinct {t : Table α} {names : List String}
    (h : ∀ k, (t.get? k).isSome = true ↔ k ∈ names) :
    t.keys = distinct (fun a b => a ≤ b) names := by
  have hperm : t.keys.Perm names.eraseDups :=
    (List.perm_ext_iff_of_nodup t.nodup_keys (nodup_eraseDups names)).mpr fun k => by
      rw [mem_keys, h, List.mem_eraseDups]
  have hsorted : t.keys.Pairwise fun a b => decide (a ≤ b) = true :=
    t.pairwise_keys.imp fun h => decide_eq_true
      (String.not_lt.mp fun h' => String.lt_irrefl _ (String.lt_trans h h'))
  rw [distinct, ← sortBy_eq_of_perm isRanking_string (fun a _ b _ hab hba => ?_) hperm,
    sortBy_of_pairwise hsorted]
  exact String.le_antisymm (of_decide_eq_true hab) (of_decide_eq_true hba)

end Table

/-! ## Notifications once each -/

namespace Store

theorem firstByReference_of_forall_mem {seen : List String} :
    ∀ {ns : List Notification}, (∀ n ∈ ns, n.reference ∈ seen) → firstByReference seen ns = []
  | [], _ => rfl
  | n :: ns, h => by
    rw [firstByReference, if_pos (h n List.mem_cons_self)]
    exact firstByReference_of_forall_mem fun m hm => h m (List.mem_cons_of_mem _ hm)

/-- References that came before add nothing. -/
theorem firstByReference_append {ms : List Notification} :
    ∀ {ns : List Notification} {seen : List String},
      (∀ m ∈ ms, m.reference ∈ seen ∨ m.reference ∈ ns.map (·.reference)) →
        firstByReference seen (ns ++ ms) = firstByReference seen ns
  | [], seen, h => firstByReference_of_forall_mem fun m hm => (h m hm).resolve_right (by simp)
  | n :: ns, seen, h => by
    rw [List.cons_append, firstByReference, firstByReference]
    split
    · next hn =>
      refine firstByReference_append fun m hm => ?_
      rcases h m hm with hm | hm
      · exact Or.inl hm
      · rcases List.mem_cons.mp hm with hm | hm
        · exact Or.inl (hm ▸ hn)
        · exact Or.inr hm
    · rw [firstByReference_append fun m hm => ?_]
      rcases h m hm with hm | hm
      · exact Or.inl (List.mem_cons_of_mem _ hm)
      · rcases List.mem_cons.mp hm with hm | hm
        · exact Or.inl (hm ▸ List.mem_cons_self)
        · exact Or.inr hm

/-- A list of notifications again and again adds nothing to the list. -/
theorem firstByReference_flatMap_const {α : Type} {as : List α} (hne : as ≠ [])
    (notifications : List Notification) :
    firstByReference [] (as.flatMap fun _ => notifications) =
      firstByReference [] notifications := by
  obtain ⟨a, as, rfl⟩ := List.exists_cons_of_ne_nil hne
  rw [List.flatMap_cons]
  refine firstByReference_append fun n hn => Or.inr (List.mem_map_of_mem ?_)
  obtain ⟨_, -, hn⟩ := List.mem_flatMap.mp hn
  exact hn

theorem firstByReference_sublist :
    ∀ (seen : List String) (ns : List Notification), (firstByReference seen ns).Sublist ns
  | _, [] => List.Sublist.refl []
  | seen, n :: ns => by
    rw [firstByReference]
    split
    · exact (firstByReference_sublist seen ns).cons n
    · exact (firstByReference_sublist _ ns).cons_cons n

theorem notMem_of_mem_firstByReference {n : Notification} :
    ∀ {ns : List Notification} {seen : List String}, n ∈ firstByReference seen ns →
      n.reference ∉ seen
  | m :: ns, seen, h => by
    rw [firstByReference] at h
    split at h
    · exact notMem_of_mem_firstByReference h
    · next hm =>
      rcases List.mem_cons.mp h with rfl | h
      · exact hm
      · exact fun hn => notMem_of_mem_firstByReference h (List.mem_cons_of_mem _ hn)

/-- The references of what is kept are different. -/
theorem nodup_firstByReference : ∀ (seen : List String) (ns : List Notification),
    ((firstByReference seen ns).map (·.reference)).Nodup
  | _, [] => List.nodup_nil
  | seen, n :: ns => by
    rw [firstByReference]
    split
    · exact nodup_firstByReference seen ns
    · refine List.nodup_cons.mpr ⟨fun h => ?_, nodup_firstByReference _ ns⟩
      obtain ⟨m, hm, heq⟩ := List.mem_map.mp h
      exact notMem_of_mem_firstByReference hm (heq ▸ List.mem_cons_self)

/-- Notifications of different references are all kept. -/
theorem firstByReference_of_nodup : ∀ {ns : List Notification} {seen : List String},
    (ns.map (·.reference)).Nodup → (∀ n ∈ ns, n.reference ∉ seen) →
      firstByReference seen ns = ns
  | [], _, _, _ => rfl
  | n :: ns, seen, hnodup, hseen => by
    obtain ⟨hn, hrest⟩ := List.nodup_cons.mp hnodup
    rw [firstByReference, if_neg (hseen n List.mem_cons_self),
      firstByReference_of_nodup hrest fun m hm h => ?_]
    rcases List.mem_cons.mp h with h | h
    · exact hn (List.mem_map.mpr ⟨m, hm, h⟩)
    · exact hseen m (List.mem_cons_of_mem _ hm) h

end Store

/-! ## A dossier in a store -/

namespace Dossier

/-- The last declaration with the MRN, which is the one that a store of the dossier holds. -/
def held? (dossier : Dossier) (mrn : String) : Option Declaration :=
  (dossier.declarations.filter (·.mrn == mrn)).getLast?

variable {dossier : Dossier} {mrn : String} {d : Declaration}

theorem isSome_held? :
    (dossier.held? mrn).isSome = true ↔ mrn ∈ dossier.declarations.map (·.mrn) := by
  rw [held?, Option.isSome_iff_ne_none, ne_eq, List.getLast?_eq_none_iff, List.filter_eq_nil_iff]
  simp

theorem mem_of_held? (h : dossier.held? mrn = some d) :
    d ∈ dossier.declarations ∧ d.mrn = mrn := by
  simpa using List.mem_filter.mp (List.mem_of_getLast? h)

theorem held?_of_nodup (hnodup : (dossier.declarations.map (·.mrn)).Nodup)
    (hd : d ∈ dossier.declarations) : dossier.held? d.mrn = some d := by
  obtain ⟨x, hx⟩ := Option.isSome_iff_exists.mp (isSome_held?.mpr (List.mem_map_of_mem hd))
  obtain ⟨hmem, hmrn⟩ := mem_of_held? hx
  rw [hx, List.inj_on_of_nodup_map hnodup hmem hd hmrn]

/-- The declaration, with the decision written if it has the MRN. -/
def written (mrn : String) (decision : Decision) (d : Declaration) : Declaration :=
  if d.mrn = mrn then d.withDecision (some decision) else d

theorem mrn_written (mrn : String) (decision : Decision) (d : Declaration) :
    (written mrn decision d).mrn = d.mrn := by
  unfold written
  split <;> rfl

theorem mrn_reread (d : Declaration) : d.reread.mrn = d.mrn := rfl

theorem checkItems_written (mrn : String) (decision : Decision) (d : Declaration) :
    (written mrn decision d).checkItems = d.checkItems := by
  unfold written
  split <;> rfl

/-- What is left of a dossier in the store where a decision was written: of the declarations
with one MRN the last, in the order of the MRNs, and of the notifications with one reference
the first. -/
def afterWrite (dossier : Dossier) (mrn : String) (decision : Decision) : Dossier where
  declarations := (distinct (fun a b => a ≤ b) (dossier.declarations.map (·.mrn))).filterMap
    fun m => (dossier.held? m).map (written mrn decision)
  notifications := Store.firstByReference [] dossier.notifications

variable {decision : Decision}

theorem mem_afterWrite (h : d ∈ (dossier.afterWrite mrn decision).declarations) :
    ∃ x ∈ dossier.declarations, written mrn decision x = d := by
  obtain ⟨m, -, hm⟩ := List.mem_filterMap.mp h
  obtain ⟨x, hx, rfl⟩ := Option.map_eq_some_iff.mp hm
  exact ⟨x, (mem_of_held? hx).1, rfl⟩

theorem map_mrn_afterWrite : (dossier.afterWrite mrn decision).declarations.map (·.mrn) =
    distinct (fun a b => a ≤ b) (dossier.declarations.map (·.mrn)) := by
  rw [afterWrite, List.map_filterMap]
  refine (List.filterMap_congr fun m hm => ?_).trans List.filterMap_some
  obtain ⟨d, hd⟩ := Option.isSome_iff_exists.mp (isSome_held?.mpr (mem_distinct.mp hm))
  rw [hd, Option.map_some, Option.map_some, mrn_written, (mem_of_held? hd).2]

/-- The declarations all stay, whatever their order, exactly if no two have one MRN. -/
theorem perm_afterWrite : ((dossier.afterWrite mrn decision).declarations.map
      Declaration.reread).Perm ((dossier.declarations.map (written mrn decision)).map
        Declaration.reread) ↔
    (dossier.declarations.map (·.mrn)).Nodup := by
  constructor
  · intro h
    have hmrns : ((dossier.afterWrite mrn decision).declarations.map (·.mrn)).Perm
        (dossier.declarations.map (·.mrn)) := by
      simpa [Function.comp_def, mrn_reread, mrn_written] using h.map (·.mrn)
    rw [map_mrn_afterWrite] at hmrns
    exact hmrns.nodup (nodup_distinct _)
  · intro hnodup
    refine List.Perm.map _ ?_
    have hnames : (distinct (fun a b => a ≤ b) (dossier.declarations.map (·.mrn))).Perm
        (dossier.declarations.map (·.mrn)) :=
      (List.perm_ext_iff_of_nodup (nodup_distinct _) hnodup).mpr fun _ => mem_distinct
    refine (hnames.filterMap _).trans (List.Perm.of_eq ?_)
    rw [List.filterMap_map, ← List.filterMap_eq_map]
    refine List.filterMap_congr fun d hd => ?_
    rw [Function.comp_apply, held?_of_nodup hnodup hd]
    rfl

/-- The notifications all stay exactly if no two have one reference. -/
theorem perm_notifications_afterWrite : ((dossier.afterWrite mrn decision).notifications.map
      Notification.reread).Perm (dossier.notifications.map Notification.reread) ↔
    (dossier.notifications.map (·.reference)).Nodup := by
  constructor
  · intro h
    have hreferences := h.map (·.reference)
    rw [List.map_map, List.map_map] at hreferences
    exact hreferences.nodup (Store.nodup_firstByReference [] dossier.notifications)
  · intro hnodup
    rw [afterWrite, Store.firstByReference_of_nodup hnodup fun _ _ => List.not_mem_nil]

end Dossier

namespace Store

variable {dossier : Dossier} {mrn : String} {d : Declaration} {decision : Decision}

theorem get?_foldl_insert (notifications : List Notification) :
    ∀ (ds : List Declaration) (s : Store),
      (ds.foldl (fun s d => s.insert d notifications) s).holdings.get? mrn =
        ((ds.filter (·.mrn == mrn)).getLast?.map (⟨·, notifications⟩)).or (s.holdings.get? mrn)
  | [], _ => rfl
  | d :: ds, s => by
    rw [List.foldl_cons, get?_foldl_insert notifications ds]
    by_cases hd : d.mrn = mrn
    · rw [List.filter_cons_of_pos (by simpa using hd), List.getLast?_cons, insert,
        Table.get?_insert, if_pos hd]
      cases (ds.filter (·.mrn == mrn)).getLast? <;> rfl
    · rw [List.filter_cons_of_neg (by simpa using hd), get?_insert_of_ne hd]

theorem get?_ofDossier : (ofDossier dossier).holdings.get? mrn =
    (dossier.held? mrn).map (⟨·, dossier.notifications⟩) := by
  rw [ofDossier, get?_foldl_insert, Dossier.held?]
  exact Option.or_none

/-- A store whose declarations are all linked to the same notifications. -/
theorem toDossier_eq {s : Store} {notifications : List Notification} {names : List String}
    {look : String → Option Declaration}
    (hget : ∀ m, s.holdings.get? m = (look m).map (⟨·, notifications⟩))
    (hnames : ∀ m, (look m).isSome = true ↔ m ∈ names) (hne : names ≠ []) :
    s.toDossier = ⟨(distinct (fun a b => a ≤ b) names).filterMap look,
      firstByReference [] notifications⟩ := by
  have hkeys : s.holdings.keys = distinct (fun a b => a ≤ b) names :=
    Table.keys_eq_distinct fun m => by rw [hget, Option.isSome_map, hnames]
  have hvalues : s.holdings.values =
      ((distinct (fun a b => a ≤ b) names).filterMap look).map (⟨·, notifications⟩) := by
    rw [Table.values_eq, hkeys, List.map_filterMap]
    exact List.filterMap_congr fun m _ => hget m
  obtain ⟨m, hm⟩ := List.exists_mem_of_ne_nil names hne
  obtain ⟨d, hd⟩ := Option.isSome_iff_exists.mp ((hnames m).mpr hm)
  have hmem : d ∈ (distinct (fun a b => a ≤ b) names).filterMap look :=
    List.mem_filterMap.mpr ⟨m, mem_distinct.mpr hm, hd⟩
  rw [toDossier, hvalues, List.map_map, List.flatMap_map]
  generalize (distinct (fun a b => a ≤ b) names).filterMap look = ds at hmem ⊢
  have hdeclarations : ds.map ((·.declaration) ∘ fun d => Holding.mk d notifications) = ds :=
    List.map_id ds
  rw [hdeclarations, firstByReference_flatMap_const (List.ne_nil_of_mem hmem)]

/-- What the store holds after the decision on one of a dossier's declarations is written. -/
theorem toDossier_write (hheld : dossier.held? mrn = some d) {writes : List WriteRecord} :
    (toDossier ⟨(ofDossier dossier).holdings.insert mrn
      ⟨d.withDecision (some decision), dossier.notifications⟩, writes⟩) =
      dossier.afterWrite mrn decision := by
  have hmrn : mrn ∈ dossier.declarations.map (·.mrn) :=
    Dossier.isSome_held?.mp (hheld ▸ rfl)
  refine toDossier_eq (fun m => ?_) (fun m => ?_) (List.ne_nil_of_mem hmrn)
  · rw [Table.get?_insert, get?_ofDossier]
    by_cases hm : mrn = m
    · subst hm
      have hwritten : Dossier.written mrn decision d = d.withDecision (some decision) :=
        if_pos (Dossier.mem_of_held? hheld).2
      simp [hheld, hwritten]
    · cases hx : dossier.held? m with
      | none => simp [hm]
      | some x =>
        have hwritten : Dossier.written mrn decision x = x :=
          if_neg fun h => hm (h.symm.trans (Dossier.mem_of_held? hx).2)
        simp [hm, hwritten]
  · rw [Option.isSome_map, Dossier.isSome_held?]

end Store

/-! ## Syncs under the standard rules -/

/-- The decision on a declaration under the standard rules. -/
def Declaration.standardDecision (d : Declaration) (s : RuleSettings) (now : Timestamp)
    (notifications : List Notification) : Decision :=
  Decision.build now d notifications (d.standardFindings s notifications)

section Sync

variable {dossier : Dossier} {mrn : String} {d : Declaration} {s : RuleSettings}
  {now : Timestamp}

/-- What a sync does to a store of the dossier that holds the declaration. -/
theorem sync_ofDossier (hheld : dossier.held? mrn = some d) :
    d.IsSettled (d.standardDecision s now dossier.notifications) ∧
        sync Store.backend (.standard s) now mrn (.ofDossier dossier) =
          (.ok (.unchanged (d.standardDecision s now dossier.notifications)),
            .ofDossier dossier) ∨
      ¬ d.IsSettled (d.standardDecision s now dossier.notifications) ∧
        ∃ record store, sync Store.backend (.standard s) now mrn (.ofDossier dossier) =
            (.ok (.written (d.standardDecision s now dossier.notifications) record), store) ∧
          store.toDossier =
            dossier.afterWrite mrn (d.standardDecision s now dossier.notifications) := by
  have hget : (Store.ofDossier dossier).holdings.get? mrn = some ⟨d, dossier.notifications⟩ := by
    rw [Store.get?_ofDossier, hheld, Option.map_some]
  have hfetch : Sync.fetch Store.backend mrn (.ofDossier dossier) = .ok ⟨d, d.marker?⟩ := by
    simp only [Sync.fetch, Store.backend, Store.fetch, hget]
    rfl
  have hplan : Sync.plan Store.backend (.standard s) now mrn ⟨d, d.marker?⟩ (.ofDossier dossier) =
      .ok (Sync.Plan.of ⟨d, d.marker?⟩ (d.standardDecision s now dossier.notifications)) := by
    simp only [Sync.plan, Store.backend, Store.list, hget, Except.mapError, bind, Except.bind,
      d.derive_standard s now]
    rfl
  rw [sync, hfetch]
  simp only [hplan]
  rcases planOf_cases ⟨d, d.marker?⟩ (d.standardDecision s now dossier.notifications) with
    ⟨hset, hkeep⟩ | ⟨hnew, hwrite⟩
  · exact Or.inl ⟨hset, by rw [hkeep]; rfl⟩
  · obtain ⟨record, -, hstore⟩ := write_of_marker
      (d := d.standardDecision s now dossier.notifications) hget
    exact Or.inr ⟨hnew, record, _, by rw [hwrite]; exact carryOut_write_ok hstore,
      Store.toDossier_write hheld⟩

end Sync

namespace CommandLine

/-- What a sync prints, and the file it saves. -/
def syncRun (o : Options) (path mrn : String) (outcome : SyncOutcome) (store : Store) : Run :=
  let status := if outcome.wasWritten then "written" else "unchanged"
  let run := printed o (("decision " ++ status) :: decisionLines mrn outcome.decision)
    (.obj [
      ("mrn", .str mrn),
      ("written", .bool outcome.wasWritten),
      ("sequence", match outcome.record? with
        | some record => .int record.sequence
        | none => .null),
      ("decision", toJson outcome.decision)])
  { run with saved := if outcome.wasWritten then some (path, storeText store) else none }

/-- The files after a run. -/
def Run.leave (r : Run) (files : Files) : Files := fun p =>
  match r.saved with
  | some (q, text) => if p = q then some text else files p
  | none => files p

section SyncFile

variable {files : Files} {now : Timestamp} {settings : Settings} {o : Options}
  {path mrn : String} {dossier : Dossier}

theorem syncFile_of_sync (hread : readDossier files path = .ok dossier) {outcome : SyncOutcome}
    {store : Store} (hsync : sync Store.backend (.standard settings.rules) now mrn
      (.ofDossier dossier) = (.ok outcome, store)) :
    syncFile files now settings o path mrn true = .ok (syncRun o path mrn outcome store) := by
  simp only [syncFile, hread, hsync, Except.mapError, bind, Except.bind]
  rfl

theorem readDossier_eq_ok_iff : readDossier files path = .ok dossier ↔
    ∃ text j, files path = some text ∧ Json.parse? text = some j ∧
      Dossier.load j = .ok dossier := by
  unfold readDossier readJson
  cases hfile : files path with
  | none => simp [bind, Except.bind]
  | some text =>
    cases hparse : Json.parse? text with
    | none => simp [bind, Except.bind, hparse]
    | some j => cases hload : Dossier.load j <;>
        simp [bind, Except.bind, Except.mapError, hparse, hload]

/-- A dossier whose declarations pass is read back from its own text. -/
theorem readDossier_text (hfile : files path = some ((toJson dossier).indentedText ++ "\n"))
    (hchecks : ∀ d ∈ dossier.declarations, d.checkItems = .ok ()) :
    readDossier files path = .ok dossier.reread :=
  readDossier_eq_ok_iff.mpr ⟨_, _, hfile,
    Json.parse?_indentedText (readable_of_le (by decide) dossier), Dossier.load_toJson hchecks⟩

theorem checkItems_of_readDossier (hread : readDossier files path = .ok dossier) :
    ∀ d ∈ dossier.declarations, d.checkItems = .ok () := by
  obtain ⟨_, _, -, -, hload⟩ := readDossier_eq_ok_iff.mp hread
  exact (Dossier.load_eq_ok_iff.mp hload).2

/-- The report of a sync that writes nothing. -/
def unchangedRun (o : Options) (mrn : String) (d : Decision) : Run :=
  printed o ("decision unchanged" :: decisionLines mrn d) (.obj [("mrn", .str mrn),
    ("written", .bool false), ("sequence", .null), ("decision", toJson d)])

theorem leave_unchangedRun (d : Decision) : (unchangedRun o mrn d).leave files = files := rfl

theorem syncRun_unchanged (d : Decision) (store : Store) :
    syncRun o path mrn (.unchanged d) store = unchangedRun o mrn d := by
  have htitle : "decision " ++ "unchanged" = "decision unchanged" := by decide
  simp only [syncRun, unchangedRun, SyncOutcome.wasWritten, SyncOutcome.record?,
    SyncOutcome.decision, Option.isSome_none, Bool.false_eq_true, if_false, htitle]
  rfl

/-- A sync succeeds where the file is read and holds the declaration. Either it leaves all as
it is, or the dossier read from the file it saves is what is left after the write. -/
theorem syncFile_eq (hread : readDossier files path = .ok dossier) {d : Declaration}
    (hheld : dossier.held? mrn = some d) {decision : Decision}
    (hdecision : d.standardDecision settings.rules now dossier.notifications = decision) :
    d.IsSettled decision ∧
        syncFile files now settings o path mrn true = .ok (unchangedRun o mrn decision) ∨
      ¬ d.IsSettled decision ∧ ∃ run, syncFile files now settings o path mrn true = .ok run ∧
        run.saved.isSome = true ∧
        readDossier (run.leave files) path = .ok (dossier.afterWrite mrn decision).reread := by
  subst hdecision
  rcases sync_ofDossier hheld with ⟨hset, hsync⟩ | ⟨hnew, record, store, hsync, hstore⟩
  · exact Or.inl ⟨hset, by rw [syncFile_of_sync hread hsync, syncRun_unchanged]⟩
  · refine Or.inr ⟨hnew, _, syncFile_of_sync hread hsync, rfl, ?_⟩
    rw [← hstore]
    refine readDossier_text (if_pos rfl) fun x hx => ?_
    rw [hstore] at hx
    obtain ⟨y, hy, rfl⟩ := Dossier.mem_afterWrite hx
    rw [Dossier.checkItems_written, checkItems_of_readDossier hread y hy]

theorem exists_of_syncFile {run : Run}
    (hrun : syncFile files now settings o path mrn true = .ok run) :
    ∃ dossier d, readDossier files path = .ok dossier ∧ dossier.held? mrn = some d := by
  cases hread : readDossier files path with
  | error e => simp [syncFile, hread, bind, Except.bind] at hrun
  | ok dossier =>
    cases hheld : dossier.held? mrn with
    | some d => exact ⟨dossier, d, rfl, hheld⟩
    | none =>
      have hfetch : Sync.fetch Store.backend mrn (.ofDossier dossier) =
          .error (.store (.notFound mrn)) := by
        simp only [Sync.fetch, Store.backend, Store.fetch, Store.get?_ofDossier, hheld]
        rfl
      simp [syncFile, hread, sync, hfetch, bind, Except.bind, Except.mapError] at hrun

/-- What a sync saves, read back, is what the store held: of the declarations with one MRN
the last and of the notifications with one reference the first, with the derived decision on
the declaration of the sync. So declarations stay as they are but for that decision exactly
if no two have one MRN, and notifications exactly if no two have one reference. -/
theorem saved_file {run : Run} (hrun : syncFile files now settings o path mrn true = .ok run)
    (hsaved : run.saved.isSome = true) :
    ∃ dossier d decision saved, readDossier files path = .ok dossier ∧
      dossier.held? mrn = some d ∧
      d.derive (.standard settings.rules) now dossier.notifications = .ok decision ∧
      readDossier (run.leave files) path = .ok saved ∧
      saved = (dossier.afterWrite mrn decision).reread ∧
      (saved.declarations.Perm ((dossier.declarations.map (Dossier.written mrn decision)).map
          Declaration.reread) ↔ (dossier.declarations.map (·.mrn)).Nodup) ∧
      (saved.notifications.Perm (dossier.notifications.map Notification.reread) ↔
        (dossier.notifications.map (·.reference)).Nodup) := by
  obtain ⟨dossier, d, hread, hheld⟩ := exists_of_syncFile hrun
  refine ⟨dossier, d, _, _, hread, hheld, d.derive_standard settings.rules now _, ?_, rfl,
    Dossier.perm_afterWrite, Dossier.perm_notifications_afterWrite⟩
  rcases syncFile_eq hread hheld rfl with ⟨-, hkept⟩ | ⟨-, run', hrun', -, hreread⟩
  · rw [hrun, Except.ok.injEq] at hkept
    rw [hkept] at hsaved
    cases hsaved
  · rw [hrun, Except.ok.injEq] at hrun'
    exact hrun' ▸ hreread

end SyncFile

end CommandLine

/-! ## Horses in a file -/

/-- A declaration of horses. -/
def horsesDeclared : Declaration where
  mrn := "25GB0000000000012"
  version := none
  finalisation := none
  commodities := [⟨1, none, none, none, [⟨"C640", "GBCHD2025.0000001"⟩], [⟨"H221"⟩]⟩]
  decision := none

/-- A version of the notification of the horses. -/
def horsesNotified (version : UInt32) : Notification where
  reference := "CHEDA.GB.2025.0000001"
  certificate := .chedA
  version := some version
  status := .submitted
  partTwo := none
  lines := []
  updated := none

/-- The notification as it was submitted, and again. -/
def horsesVersions : List Notification := [horsesNotified 1, horsesNotified 2]

/-- The horses with some versions of their notification. -/
def horsesWith (notifications : List Notification) : Dossier := ⟨[horsesDeclared], notifications⟩

namespace CommandLine

/-- A file with the dossier, under any name. -/
def fileOf (dossier : Dossier) : Files := fun _ => some ((toJson dossier).indentedText ++ "\n")

theorem readDossier_horsesWith (notifications : List Notification)
    (h : notifications.map Notification.reread = notifications) (path : String) :
    readDossier (fileOf (horsesWith notifications)) path = .ok (horsesWith notifications) := by
  have hchecks : ∀ d ∈ (horsesWith notifications).declarations, d.checkItems = .ok () := by
    intro d hd
    obtain rfl := List.mem_singleton.mp hd
    decide +kernel
  have hsame : (horsesWith notifications).reread = horsesWith notifications :=
    congrArg horsesWith h
  have hread := @readDossier_text (fileOf (horsesWith notifications)) path _ rfl hchecks
  rwa [hsame] at hread

theorem held?_horsesWith (notifications : List Notification) :
    (horsesWith notifications).held? "25GB0000000000012" = some horsesDeclared := by
  have : ([horsesDeclared].filter (·.mrn == "25GB0000000000012")).getLast? =
      some horsesDeclared := by decide +kernel
  exact this

def plainOptions : Options := ⟨.text, false, none⟩

/-- The horses carry no decision yet, so a sync writes. -/
theorem syncFile_horsesWith (notifications : List Notification)
    (h : notifications.map Notification.reread = notifications) :
    ∃ run, syncFile (fileOf (horsesWith notifications)) .epoch .standard plainOptions "store.json"
        "25GB0000000000012" true = .ok run ∧ run.saved.isSome = true ∧
      readDossier (run.leave (fileOf (horsesWith notifications))) "store.json" =
        .ok ((horsesWith notifications).afterWrite "25GB0000000000012"
          (horsesDeclared.standardDecision .standard .epoch notifications)).reread := by
  rcases syncFile_eq (readDossier_horsesWith notifications h "store.json")
      (held?_horsesWith notifications) rfl with
    ⟨hset, -⟩ | ⟨-, hwrites⟩
  · obtain ⟨_, hdecision, -⟩ := hset
    cases hdecision
  · exact hwrites

/-- Of two versions of one notification the second is gone from the file that is saved. -/
theorem second_version_lost :
    ∃ run saved, syncFile (fileOf (horsesWith horsesVersions)) .epoch .standard plainOptions
        "store.json" "25GB0000000000012" true = .ok run ∧ run.saved.isSome = true ∧
      readDossier (run.leave (fileOf (horsesWith horsesVersions))) "store.json" = .ok saved ∧
      ¬ saved.notifications.Perm horsesVersions := by
  obtain ⟨run, hrun, hsaved, hread⟩ := syncFile_horsesWith horsesVersions rfl
  refine ⟨run, _, hrun, hsaved, hread, fun hperm => ?_⟩
  have hlength : 1 = 2 := hperm.length_eq
  cases hlength

/-- One version of a notification is kept. -/
theorem single_version_kept :
    ∃ run saved, syncFile (fileOf (horsesWith [horsesNotified 1])) .epoch .standard
        plainOptions "store.json" "25GB0000000000012" true = .ok run ∧
      readDossier (run.leave (fileOf (horsesWith [horsesNotified 1]))) "store.json" =
        .ok saved ∧
      saved.notifications.Perm [horsesNotified 1] := by
  obtain ⟨run, hrun, hsaved, -⟩ :=
    syncFile_horsesWith [horsesNotified 1] rfl
  obtain ⟨dossier, -, -, saved, hread, -, -, hreread, -, -, hkept⟩ := saved_file hrun hsaved
  obtain rfl := Except.ok.inj ((readDossier_horsesWith _ rfl "store.json").symm.trans hread)
  exact ⟨run, saved, hrun, hreread, hkept.mpr (by decide +kernel)⟩

end CommandLine

end BorderControl
