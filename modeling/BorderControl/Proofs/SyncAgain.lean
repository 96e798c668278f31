import BorderControl.Proofs.Marker
import BorderControl.Proofs.Relevance
import BorderControl.Proofs.RereadFindings
import BorderControl.Proofs.ResultOrder
import BorderControl.Proofs.StoreFile
import Mathlib.Data.List.Flatten

/-!
# A sync made again

A sync leaves the file alone if the declaration carries a decision that is the same as the
derived one, by marker or by results. After a first sync that wrote, the declaration carries
the decision that was derived from all its notifications, and a second sync derives one from
those that the file kept. What is read back gives the same findings, so a difference comes
from the notifications that were left out alone.

The results of both decisions match exactly if no notification that was left out is named
by a document of the declaration (`Declaration.resultsMatch_iff`): every one of those adds a
finding that is linked, and results that match have as many links (`length_links_of_match`).
This decides what a second sync does (`CommandLine.sync_again`). A third sync is made on a
file that leaves nothing out, and changes nothing.
-/

namespace BorderControl

/-! ## The notifications that a declaration is linked to -/

/-- The references that findings are linked to. -/
def links (findings : List Finding) : List String := findings.filterMap (·.notificationReference)

section Links

variable {notifications notifications' : List Notification}

theorem filterMap_pairingsWith (d : Document) :
    (pairingsWith notifications d).filterMap (fun p => p.notification.map (·.reference)) =
      (d.identifier?.toList.flatMap (notificationsFor notifications)).map (·.reference) := by
  rw [pairingsWith]
  cases d.identifier? with
  | none => rfl
  | some i =>
    rw [Option.elim_some, pairingsOf, Option.toList_some, List.flatMap_singleton]
    cases notificationsFor notifications i with
    | nil => rfl
    | cons n rest => simp

theorem filterMap_pairings (checkCode : String) (documents : List Document) :
    (pairings notifications checkCode documents).filterMap
        (fun p => p.notification.map (·.reference)) =
      (((evidence checkCode documents).filterMap (·.identifier?)).flatMap
        (notificationsFor notifications)).map (·.reference) := by
  have hnamed : ((evidence checkCode documents).filterMap (·.identifier?)).flatMap
      (notificationsFor notifications) = (evidence checkCode documents).flatMap fun d =>
        d.identifier?.toList.flatMap (notificationsFor notifications) := by
    rw [List.filterMap_eq_flatMap_toList, List.flatMap_assoc]
  rw [pairings_eq, hnamed, List.map_flatMap]
  split
  · next hnone =>
    rw [hnone]
    rfl
  · rw [List.filterMap_flatMap]
    exact congrArg ((evidence checkCode documents).flatMap ·) (funext filterMap_pairingsWith)

theorem Check.links_standardFindings (check : Check) (s : RuleSettings) (d : Declaration)
    (commodity : Commodity) :
    links (check.standardFindings s d notifications commodity) =
      (((evidence check.code commodity.documents).filterMap (·.identifier?)).flatMap
        (notificationsFor notifications)).map (·.reference) := by
  rw [← filterMap_pairings, links, standardFindings, explained, List.filterMap_map,
    List.filterMap_map]
  rfl

/-- The findings are linked to the notifications of the certificates asked for. -/
theorem Declaration.links_standardFindings (d : Declaration) (s : RuleSettings) :
    links (d.standardFindings s notifications) =
      (d.asked.flatMap (notificationsFor notifications)).map (·.reference) := by
  simp only [links, standardFindings, asked, List.filterMap_flatMap, List.flatMap_assoc,
    List.map_flatMap]
  refine congrArg (d.commodities.flatMap ·) (funext fun commodity =>
    congrArg (commodity.checks.flatMap ·) (funext fun check => ?_))
  rw [← List.map_flatMap]
  exact check.links_standardFindings s d commodity

theorem Declaration.standardFindings_congr (d : Declaration) (s : RuleSettings)
    (h : ∀ i ∈ d.asked, notificationsFor notifications i = notificationsFor notifications' i) :
    d.standardFindings s notifications = d.standardFindings s notifications' := by
  rw [← found_standard, found_congr h, found_standard]

/-! ## Results that match -/

theorem resultsMatch_refl (results : List Result) : resultsMatch results results = true :=
  pairwiseAgree_iff.mpr (List.forall₂_same.mpr fun r _ => by simp [Result.agrees])

/-- Results that match have as many links. -/
theorem length_links_of_match {findings findings' : List Finding}
    (h : resultsMatch (findings.map Finding.toResult) (findings'.map Finding.toResult) = true) :
    (links findings).length = (links findings').length := by
  -- place by place in the sorted lists both results are linked, or neither is
  have hsorted : (sortBy Result.documentLe (findings.map Finding.toResult)).map Result.isLinked =
      (sortBy Result.documentLe (findings'.map Finding.toResult)).map Result.isLinked := by
    refine map_eq_map_iff_forall₂.mpr ((pairwiseAgree_iff.mp h).imp fun r r' hr => ?_)
    simp only [Result.agrees, Bool.and_eq_true, beq_iff_eq] at hr
    exact hr.1.1.1.1.1.2
  have hperm : ∀ findings : List Finding,
      ((sortBy Result.documentLe (findings.map Finding.toResult)).map Result.isLinked).Perm
        ((findings.map Finding.toResult).map Result.isLinked) :=
    fun findings => (perm_sortBy _ _).map _
  have hcount := ((hperm findings).symm.trans (hsorted ▸ hperm findings')).countP_eq id
  rw [List.map_map, List.map_map, List.countP_map, List.countP_map] at hcount
  rw [links, links, List.length_filterMap_eq_countP, List.length_filterMap_eq_countP]
  exact hcount

theorem forall_eq_of_length_flatMap {α β : Type} {f g : α → List β} : ∀ {l : List α},
    (∀ a ∈ l, (f a).Sublist (g a)) → (l.flatMap f).length = (l.flatMap g).length →
      ∀ a ∈ l, f a = g a
  | [], _, _ => List.forall_mem_nil _
  | a :: l, hsub, hlength => by
    obtain ⟨ha, hrest⟩ := List.forall_mem_cons.mp hsub
    have hle := ha.length_le
    have hrest_le := (List.Sublist.flatMap_right l hrest).length_le
    rw [List.flatMap_cons, List.flatMap_cons, List.length_append, List.length_append] at hlength
    exact List.forall_mem_cons.mpr ⟨ha.eq_of_length (by omega),
      forall_eq_of_length_flatMap hrest (by omega)⟩

/-- With some of the notifications left out, the results match exactly if none of those is
asked for. -/
theorem Declaration.resultsMatch_iff (hsub : notifications'.Sublist notifications)
    (d : Declaration) (s : RuleSettings) :
    resultsMatch ((d.standardFindings s notifications).map Finding.toResult)
        ((d.standardFindings s notifications').map Finding.toResult) = true ↔
      ∀ i ∈ d.asked, notificationsFor notifications' i = notificationsFor notifications i := by
  constructor
  · -- every certificate keeps some of its notifications, in order, and all of them together
    -- are as many as before
    intro h
    have hlength := length_links_of_match h
    rw [d.links_standardFindings, d.links_standardFindings, List.length_map, List.length_map]
      at hlength
    exact forall_eq_of_length_flatMap (fun i _ => hsub.filter _) hlength.symm
  · intro h
    rw [d.standardFindings_congr s h]
    exact resultsMatch_refl _

end Links

/-! ## After a write -/

section AfterWrite

variable {dossier : Dossier} {mrn : String} {d : Declaration}

/-- The declaration of a sync is found again, with the decision written. -/
theorem Dossier.held?_afterWrite (hheld : dossier.held? mrn = some d) (decision : Decision) :
    (dossier.afterWrite mrn decision).reread.held? mrn =
      some (d.withDecision (some decision)).reread := by
  have hmrn := (mem_of_held? hheld).2
  have hwritten : written mrn decision d = d.withDecision (some decision) := if_pos hmrn
  have hnodup : ((dossier.afterWrite mrn decision).reread.declarations.map (·.mrn)).Nodup := by
    have hmrns : (dossier.afterWrite mrn decision).reread.declarations.map (·.mrn) =
        (dossier.afterWrite mrn decision).declarations.map (·.mrn) := List.map_map
    rw [hmrns, map_mrn_afterWrite]
    exact nodup_distinct _
  have hmem : (d.withDecision (some decision)).reread ∈
      (dossier.afterWrite mrn decision).reread.declarations := by
    refine List.mem_map_of_mem (List.mem_filterMap.mpr ⟨mrn, mem_distinct.mpr ?_, ?_⟩)
    · exact isSome_held?.mp (hheld ▸ rfl)
    · rw [hheld, Option.map_some, hwritten]
  exact hmrn ▸ held?_of_nodup hnodup hmem

theorem Declaration.standardFindings_withDecision (s : RuleSettings) (decision : Option Decision)
    (notifications : List Notification) :
    (d.withDecision decision).standardFindings s notifications =
      d.standardFindings s notifications :=
  Except.ok.inj (by rw [← findings_standard, findings_withDecision, findings_standard])

/-- The decision written is the one derived from what is read back, if the markers are equal
or no notification that is asked for was left out. -/
theorem Declaration.isSettled_afterWrite {s : RuleSettings} {now later : Timestamp}
    {notifications : List Notification} {decision again : Decision}
    (hdecision : d.standardDecision s now notifications = decision)
    (hagain : (d.withDecision (some decision)).reread.standardDecision s later
      ((Store.firstByReference [] notifications).map Notification.reread) = again) :
    (d.withDecision (some decision)).reread.IsSettled again ↔
      decision.sourceVersion = again.sourceVersion ∨
        ∀ i ∈ d.asked, notificationsFor (Store.firstByReference [] notifications) i =
          notificationsFor notifications i := by
  subst hdecision hagain
  have hmarker : ∀ again : Decision,
      (d.standardDecision s now notifications).sameMarker again = true ↔
        (d.standardDecision s now notifications).sourceVersion = again.sourceVersion := by
    intro again
    rw [Decision.sameMarker, Bool.and_eq_true, beq_iff_eq]
    exact and_iff_right rfl
  have hfindings : ∀ written : Decision,
      (d.withDecision (some written)).reread.standardFindings s
          ((Store.firstByReference [] notifications).map Notification.reread) =
        d.standardFindings s (Store.firstByReference [] notifications) := by
    intro written
    rw [standardFindings_reread, standardFindings_withDecision]
  rw [← d.resultsMatch_iff (Store.firstByReference_sublist [] notifications) s, ← hmarker,
    ← hfindings (d.standardDecision s now notifications), ← Bool.or_eq_true]
  constructor
  · rintro ⟨_, hdecision, hsame⟩
    obtain rfl := Option.some.inj hdecision
    exact hsame
  · intro hsame
    exact ⟨_, rfl, hsame⟩

/-- Where no two notifications have one reference, none is left out. -/
theorem Declaration.isSettled_of_nodup {s : RuleSettings} {now later : Timestamp}
    {notifications : List Notification} {decision again : Decision}
    (hdecision : d.standardDecision s now notifications = decision)
    (hagain : (d.withDecision (some decision)).reread.standardDecision s later
      ((Store.firstByReference [] notifications).map Notification.reread) = again)
    (hnodup : (notifications.map (·.reference)).Nodup) :
    (d.withDecision (some decision)).reread.IsSettled again :=
  (isSettled_afterWrite hdecision hagain).mpr (Or.inr fun i _ => by
    rw [Store.firstByReference_of_nodup hnodup fun _ _ => List.not_mem_nil])

end AfterWrite

/-! ## Syncs one after the other -/

namespace CommandLine

variable {files : Files} {path mrn : String} {dossier : Dossier} {d : Declaration}
  {settings : Settings} {o : Options}

/-- A sync of a settled declaration changes nothing, at no time. -/
theorem syncFile_of_settled (hread : readDossier files path = .ok dossier)
    (hheld : dossier.held? mrn = some d) (now : Timestamp)
    (hset : d.IsSettled (d.standardDecision settings.rules now dossier.notifications))
    (later : Timestamp) : syncFile files later settings o path mrn true =
      .ok (unchangedRun o mrn (d.standardDecision settings.rules later dossier.notifications)) := by
  rcases syncFile_eq hread hheld rfl with ⟨-, hrun⟩ | ⟨hnew, -⟩
  · exact hrun
  · exact absurd hset hnew

/-- What a sync does where a first one wrote, and what one after it does. -/
theorem syncFile_afterWrite {now later : Timestamp} {decision again : Decision}
    (hread : readDossier files path = .ok (dossier.afterWrite mrn decision).reread)
    (hheld : dossier.held? mrn = some d)
    (hdecision : d.standardDecision settings.rules now dossier.notifications = decision)
    (hagain : (d.withDecision (some decision)).reread.standardDecision settings.rules later
      (dossier.afterWrite mrn decision).reread.notifications = again) (last : Timestamp) :
    ∃ second, syncFile files later settings o path mrn true = .ok second ∧
      (second = unchangedRun o mrn again ↔ decision.sourceVersion = again.sourceVersion ∨
        ∀ i ∈ d.asked, notificationsFor (Store.firstByReference [] dossier.notifications) i =
          notificationsFor dossier.notifications i) ∧
      ∃ third, syncFile (second.leave files) last settings o path mrn true =
        .ok (unchangedRun o mrn third) := by
  have hheld' := Dossier.held?_afterWrite hheld decision
  rw [← Declaration.isSettled_afterWrite hdecision hagain]
  rcases syncFile_eq (o := o) hread hheld' hagain with
    ⟨hset, hsecond⟩ | ⟨hnew, second, hsecond, hsaved, hread'⟩
  · exact ⟨_, hsecond, iff_of_true rfl hset, _,
      syncFile_of_settled hread hheld' later (hagain ▸ hset) last⟩
  · have hwrites : second ≠ unchangedRun o mrn again := by
      rintro rfl
      cases hsaved
    -- the file that the second sync saves leaves out nothing of what it read
    have hnodup : ((dossier.afterWrite mrn decision).reread.notifications.map
        (·.reference)).Nodup := by
      rw [Dossier.reread, List.map_map]
      exact Store.nodup_firstByReference [] dossier.notifications
    exact ⟨second, hsecond, iff_of_false hwrites hnew, _,
      syncFile_of_settled hread' (Dossier.held?_afterWrite hheld' again) last
        (Declaration.isSettled_of_nodup hagain rfl hnodup) last⟩

/-- A sync that is made again on the file of the first one reports the decision as unchanged,
and leaves the file as it is, exactly if the first one saved nothing, or the marker it saved
is the new one, or it left out no notification that the documents of the declaration ask for.
It leaves none out if no two have one reference. A third sync always reports the decision as
unchanged. -/
theorem sync_again (hread : readDossier files path = .ok dossier)
    (hheld : dossier.held? mrn = some d) (settings : Settings) (o : Options)
    (now later last : Timestamp) :
    ∃ first second dossier' d' again,
      syncFile files now settings o path mrn true = .ok first ∧
      readDossier (first.leave files) path = .ok dossier' ∧ dossier'.held? mrn = some d' ∧
      d'.derive (.standard settings.rules) later dossier'.notifications = .ok again ∧
      syncFile (first.leave files) later settings o path mrn true = .ok second ∧
      (second = unchangedRun o mrn again ↔ first.saved = none ∨
        d'.marker? = again.sourceVersion ∨
        ∀ i ∈ d.asked, notificationsFor (Store.firstByReference [] dossier.notifications) i =
          notificationsFor dossier.notifications i) ∧
      (second = unchangedRun o mrn again →
        second.leave (first.leave files) = first.leave files) ∧
      ((dossier.notifications.map (·.reference)).Nodup → second = unchangedRun o mrn again) ∧
      ∃ decision, syncFile (second.leave (first.leave files)) last settings o path mrn true =
        .ok (unchangedRun o mrn decision) := by
  obtain ⟨decision, hdecision⟩ :
      ∃ decision, d.standardDecision settings.rules now dossier.notifications = decision :=
    ⟨_, rfl⟩
  rcases syncFile_eq (o := o) hread hheld hdecision with
    ⟨hset, hfirst⟩ | ⟨-, first, hfirst, hsaved, hread'⟩
  · -- nothing is saved, so every sync is the first one again
    have hrun := syncFile_of_settled (o := o) hread hheld now (hdecision ▸ hset)
    exact ⟨_, _, dossier, d, _, hfirst, hread, hheld, d.derive_standard settings.rules later _,
      hrun later, iff_of_true rfl (Or.inl rfl), fun _ => leave_unchangedRun _, fun _ => rfl, _,
      hrun last⟩
  obtain ⟨again, hagain⟩ : ∃ again, (d.withDecision (some decision)).reread.standardDecision
      settings.rules later (dossier.afterWrite mrn decision).reread.notifications = again :=
    ⟨_, rfl⟩
  obtain ⟨second, hsecond, hiff, hthird⟩ :=
    syncFile_afterWrite (o := o) hread' hheld hdecision hagain last
  have hwrote : first.saved ≠ none := by
    intro hnone
    rw [hnone] at hsaved
    cases hsaved
  refine ⟨first, second, _, _, again, hfirst, hread', Dossier.held?_afterWrite hheld decision,
    hagain ▸ Declaration.derive_standard _ _ _ _, hsecond, ?_,
    fun h => h ▸ leave_unchangedRun _, fun hnodup => hiff.mpr (Or.inr fun i _ => ?_), hthird⟩
  · rw [hiff, or_iff_right hwrote]
    exact Iff.rfl
  · rw [Store.firstByReference_of_nodup hnodup fun _ _ => List.not_mem_nil]

/-! ## Horses with two versions of a notification -/

/-- Two versions of a notification leave two findings in the marker, the first one alone leaves
one. -/
theorem marker_horsesVersions_ne :
    marker horsesDeclared horsesVersions (horsesDeclared.standardFindings .standard
        horsesVersions) ≠
      marker horsesDeclared [horsesNotified 1]
        (horsesDeclared.standardFindings .standard [horsesNotified 1]) := by
  rw [marker_eq, marker_eq]
  decide +kernel

/-- Read back with a decision, the horses have the marker that they had. -/
theorem marker_horses_reread (decision : Option Decision) :
    marker (horsesDeclared.withDecision decision).reread
        ([horsesNotified 1].map Notification.reread)
        ((horsesDeclared.withDecision decision).reread.standardFindings .standard
          ([horsesNotified 1].map Notification.reread)) =
      marker horsesDeclared [horsesNotified 1]
        (horsesDeclared.standardFindings .standard [horsesNotified 1]) := by
  rw [Declaration.standardFindings_reread, Declaration.standardFindings_withDecision]
  have htext : Marker.text (horsesDeclared.withDecision decision).reread
      ([horsesNotified 1].map Notification.reread)
      (horsesDeclared.standardFindings .standard [horsesNotified 1]) =
      Marker.text horsesDeclared [horsesNotified 1]
        (horsesDeclared.standardFindings .standard [horsesNotified 1]) :=
    Marker.text_eq_iff.mpr ⟨rfl, rfl, rfl, rfl, fun _ _ => rfl, rfl⟩
  rw [marker, htext, marker]

/-- Where a sync leaves out a version of a notification, the next one writes again. -/
theorem second_sync_writes :
    ∃ first second, syncFile (fileOf (horsesWith horsesVersions)) .epoch .standard plainOptions
        "store.json" "25GB0000000000012" true = .ok first ∧
      syncFile (first.leave (fileOf (horsesWith horsesVersions))) .epoch .standard plainOptions
        "store.json" "25GB0000000000012" true = .ok second ∧
      second.saved.isSome = true ∧
      ∀ decision, second ≠ unchangedRun plainOptions "25GB0000000000012" decision := by
  obtain ⟨first, hfirst, -, hread⟩ := syncFile_horsesWith horsesVersions rfl
  have hheld := Dossier.held?_afterWrite (held?_horsesWith horsesVersions)
    (horsesDeclared.standardDecision .standard .epoch horsesVersions)
  rcases syncFile_eq (o := plainOptions) hread hheld
      (rfl : Declaration.standardDecision _ Settings.standard.rules .epoch _ = _) with
    ⟨hset, -⟩ | ⟨-, second, hsecond, hsaved, -⟩
  · have hkept : Store.firstByReference [] horsesVersions = [horsesNotified 1] := by
      decide +kernel
    rcases (Declaration.isSettled_afterWrite rfl rfl).mp hset with hmarker | hevidence
    · rw [hkept] at hmarker
      exact absurd ((Option.some.inj hmarker).trans (marker_horses_reread _))
        marker_horsesVersions_ne
    · rw [hkept] at hevidence
      exact absurd hevidence (by decide +kernel)
  · refine ⟨first, second, hfirst, hsecond, hsaved, ?_⟩
    rintro decision rfl
    cases hsaved

/-- With one version of the notification the second sync changes nothing. -/
theorem single_version_unchanged :
    ∃ first again, syncFile (fileOf (horsesWith [horsesNotified 1])) .epoch .standard
        plainOptions "store.json" "25GB0000000000012" true = .ok first ∧
      syncFile (first.leave (fileOf (horsesWith [horsesNotified 1]))) .epoch .standard
        plainOptions "store.json" "25GB0000000000012" true =
          .ok (unchangedRun plainOptions "25GB0000000000012" again) := by
  obtain ⟨first, second, -, -, again, hfirst, -, -, -, hsecond, -, -, hnodup, -⟩ :=
    sync_again (readDossier_horsesWith [horsesNotified 1] rfl "store.json")
      (held?_horsesWith _) .standard plainOptions .epoch .epoch .epoch
  refine ⟨first, again, hfirst, ?_⟩
  rw [hsecond, hnodup (by decide +kernel)]

end CommandLine

end BorderControl
