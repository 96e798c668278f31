import BorderControl.Proofs.Coverage

/-!
# What a decision depends on

The documents that count for the checks of a declaration name some certificates
(`Declaration.asked`), and of all notifications a derivation asks for those of these
certificates alone. Notifications that agree on them give the same findings
(`Declaration.found_congr`). The marker looks notifications up once more, by the references
that the findings are linked to (`marker_congr`).

So evidence that does not concern a declaration has no say in its decision
(`Dossier.derive_unconcerned`): neither the other declarations of the dossier, nor the
decision that it carries, nor a notification of a certificate that no document of it names.
Such a notification can only show in the marker, where it takes the place of a linked one
with the same reference.
-/

namespace BorderControl

/-! ## The certificates asked for -/

/-- The certificates that the documents of a declaration name, check by check. -/
def Declaration.asked (d : Declaration) : List Identifier :=
  d.commodities.flatMap fun commodity => commodity.checks.flatMap fun check =>
    (evidence check.code commodity.documents).filterMap (·.identifier?)

section Asked

variable {sets : RuleSets} {d : Declaration} {notifications notifications' : List Notification}

theorem Declaration.mem_asked {i : Identifier} : i ∈ d.asked ↔
    ∃ commodity ∈ d.commodities, ∃ check ∈ commodity.checks, ∃ document ∈ commodity.documents,
      document.qualifiesFor check.code = true ∧ document.identifier? = some i := by
  simp only [asked, List.mem_flatMap, List.mem_filterMap, mem_evidence, and_assoc]

theorem pairings_congr_of_evidence {checkCode : String} {documents : List Document}
    (h : ∀ document ∈ evidence checkCode documents, ∀ i, document.identifier? = some i →
      notificationsFor notifications i = notificationsFor notifications' i) :
    pairings notifications checkCode documents = pairings notifications' checkCode documents := by
  have hwith : ∀ document ∈ evidence checkCode documents,
      pairingsWith notifications document = pairingsWith notifications' document := by
    intro document hdocument
    rw [pairingsWith, pairingsWith]
    cases hi : document.identifier? with
    | none => rfl
    | some i => rw [Option.elim_some, Option.elim_some, pairingsOf, pairingsOf, h _ hdocument i hi]
  rw [pairings_eq, pairings_eq, List.flatMap_congr hwith]

/-- Findings depend on the notifications of the certificates asked for alone. -/
theorem Declaration.found_congr
    (h : ∀ i ∈ d.asked, notificationsFor notifications i = notificationsFor notifications' i) :
    d.found sets notifications = d.found sets notifications' := by
  refine List.flatMap_congr fun commodity hcommodity => List.flatMap_congr fun check hcheck => ?_
  have hpairs : pairings notifications check.code commodity.documents =
      pairings notifications' check.code commodity.documents :=
    pairings_congr_of_evidence fun document hdocument i hi =>
      h i (mem_asked.mpr ⟨commodity, hcommodity, check, hcheck, document,
        (mem_evidence.mp hdocument).1, (mem_evidence.mp hdocument).2, hi⟩)
  rw [Check.found, hpairs, Check.found]

end Asked

/-! ## One notification more -/

section Insert

variable {d : Declaration} {x : Notification} {front back : List Notification}

/-- The notification has no certificate, or one that no document that counts for a check of
the declaration names. -/
def Notification.IsForeignTo (x : Notification) (d : Declaration) : Prop :=
  ∀ i, x.identifier? = some i →
    ∀ commodity ∈ d.commodities, ∀ check ∈ commodity.checks, ∀ document ∈ commodity.documents,
      document.qualifiesFor check.code = true → document.identifier? ≠ some i

theorem Declaration.isForeignTo_iff : x.IsForeignTo d ↔ ∀ i ∈ d.asked, x.identifier? ≠ some i := by
  constructor
  · intro h i hi hxi
    obtain ⟨commodity, hcommodity, check, hcheck, document, hdocument, hq, hdi⟩ := mem_asked.mp hi
    exact h i hxi commodity hcommodity check hcheck document hdocument hq hdi
  · intro h i hxi commodity hcommodity check hcheck document hdocument hq hdi
    exact h i (mem_asked.mpr ⟨commodity, hcommodity, check, hcheck, document, hdocument, hq, hdi⟩)
      hxi

theorem notificationsFor_insert {i : Identifier} (h : x.identifier? ≠ some i) :
    notificationsFor (front ++ x :: back) i = notificationsFor (front ++ back) i := by
  have hback : (x :: back).filter (·.identifier? == some i) =
      back.filter (·.identifier? == some i) := List.filter_cons_of_neg (by simpa using h)
  rw [notificationsFor, notificationsFor, List.filter_append, List.filter_append, hback]

/-- A foreign notification adds no finding and changes none. -/
theorem Declaration.found_insert (hx : x.IsForeignTo d) (sets : RuleSets) :
    d.found sets (front ++ x :: back) = d.found sets (front ++ back) :=
  found_congr fun i hi => notificationsFor_insert (isForeignTo_iff.mp hx i hi)

theorem find?_reference_insert {reference : String} (h : x.reference ≠ reference) :
    (front ++ x :: back).find? (·.reference == reference) =
      (front ++ back).find? (·.reference == reference) := by
  have hback : (x :: back).find? (·.reference == reference) =
      back.find? (·.reference == reference) := List.find?_cons_of_neg (by simpa using h)
  rw [List.find?_append, List.find?_append, hback]

end Insert

/-- The marker depends on the first notification of each reference that findings are linked
to. -/
theorem marker_congr {d : Declaration} {notifications notifications' : List Notification}
    {findings : List Finding}
    (h : ∀ f ∈ findings, ∀ reference, f.notificationReference = some reference →
      notifications.find? (·.reference == reference) =
        notifications'.find? (·.reference == reference)) :
    marker d notifications findings = marker d notifications' findings := by
  have hconsulted : Marker.consulted notifications findings =
      Marker.consulted notifications' findings := by
    refine List.map_congr_left fun reference hreference => ?_
    obtain ⟨f, hf, hlinked⟩ := List.mem_filterMap.mp (mem_distinct.mp hreference)
    rw [h f hf reference hlinked]
  rw [marker, marker, Marker.text, Marker.text, Marker.source, Marker.source, hconsulted]

/-! ## Decisions -/

section Decided

variable {sets : RuleSets} {now : Timestamp}

namespace Declaration

theorem found_withDecision (d : Declaration) (stored : Option Decision) (sets : RuleSets)
    (notifications : List Notification) :
    (d.withDecision stored).found sets notifications = d.found sets notifications := by
  refine List.flatMap_congr fun commodity _ => List.flatMap_congr fun check _ => ?_
  rw [Check.found, Check.found]
  exact congrArg (explained commodity)
    (List.map_congr_left fun p _ => findingFor_withDecision _ d stored commodity check.code p)

/-- The decision that a declaration carries has no say in the one made anew, and the time is
only written down. -/
theorem decided_withDecision (d : Declaration) (stored : Option Decision) (sets : RuleSets)
    (now later : Timestamp) (notifications : List Notification) :
    (d.withDecision stored).decided sets later notifications =
      (d.decided sets now notifications).at later := by
  rw [decided, found_withDecision]
  rfl

/-- A decision made with a foreign notification more. -/
theorem decided_insert {d : Declaration} {x : Notification} {front back : List Notification}
    (hx : x.IsForeignTo d) (sets : RuleSets) (now : Timestamp) :
    (d.decided sets now (front ++ x :: back)).items =
        (d.decided sets now (front ++ back)).items ∧
      (d.decided sets now (front ++ x :: back)).results =
        (d.decided sets now (front ++ back)).results ∧
      ((∀ results, (d.decided sets now (front ++ back)).results = some results →
          ∀ r ∈ results, r.notificationReference ≠ some x.reference) →
        (d.decided sets now (front ++ x :: back)).sourceVersion =
          (d.decided sets now (front ++ back)).sourceVersion) := by
  have hfound : d.found sets (front ++ x :: back) = d.found sets (front ++ back) :=
    found_insert hx sets
  refine ⟨congrArg foldItems hfound,
    congrArg (fun fs : List Finding => some (fs.map Finding.toResult)) hfound, fun hlinks => ?_⟩
  have hother : ∀ f ∈ d.found sets (front ++ back), ∀ reference,
      f.notificationReference = some reference → x.reference ≠ reference := by
    rintro f hf _ hlinked rfl
    exact hlinks _ rfl f.toResult (List.mem_map_of_mem hf) hlinked
  have hmarker : marker d (front ++ x :: back) (d.found sets (front ++ back)) =
      marker d (front ++ back) (d.found sets (front ++ back)) :=
    marker_congr fun f hf reference hlinked => find?_reference_insert (hother f hf _ hlinked)
  exact congrArg some ((congrArg (marker d (front ++ x :: back)) hfound).trans hmarker)

end Declaration

/-- The entry of a derivation that succeeds for a declaration of the dossier. -/
theorem Dossier.getElem?_of_derive {dossier : Dossier} {decisions : List (String × Decision)}
    {i : Nat} {d : Declaration} (h : dossier.derive sets now = .ok decisions)
    (hd : dossier.declarations[i]? = some d) :
    decisions[i]? = some (d.mrn, d.decided sets now dossier.notifications) := by
  obtain ⟨-, rfl⟩ := derive_eq_ok_iff.mp h
  rw [List.getElem?_map, hd]
  rfl

/-- The decision on a declaration of a dossier that is decided. It is the same among other
declarations and after another decision, whatever the time. With a foreign notification put
anywhere among the others the dossier is still decided, with the same items and results for
the declaration, and with the same marker unless a result is linked to the reference of that
notification. -/
theorem Dossier.derive_unconcerned {dossier : Dossier} {decisions : List (String × Decision)}
    {i : Nat} {d : Declaration} (h : dossier.derive sets now = .ok decisions)
    (hd : dossier.declarations[i]? = some d) :
    ∃ decision, decisions[i]? = some (d.mrn, decision) ∧
      (∀ (declarations : List Declaration) (j : Nat) (stored : Option Decision)
          (later : Timestamp) (decisions' : List (String × Decision)),
        declarations[j]? = some (d.withDecision stored) →
        (Dossier.mk declarations dossier.notifications).derive sets later = .ok decisions' →
          decisions'[j]? = some (d.mrn, decision.at later)) ∧
      ∀ (x : Notification) (front back : List Notification),
        x.IsForeignTo d → dossier.notifications = front ++ back →
        ∃ decisions' decision',
          (Dossier.mk dossier.declarations (front ++ x :: back)).derive sets now =
            .ok decisions' ∧
          decisions'[i]? = some (d.mrn, decision') ∧
          decision'.items = decision.items ∧ decision'.results = decision.results ∧
          ((∀ results, decision.results = some results →
              ∀ r ∈ results, r.notificationReference ≠ some x.reference) →
            decision'.sourceVersion = decision.sourceVersion) := by
  refine ⟨_, getElem?_of_derive h hd, ?_, ?_⟩
  · intro declarations j stored later decisions' hj h'
    rw [getElem?_of_derive h' hj, Declaration.decided_withDecision d stored sets now]
    rfl
  · intro x front back hx hnotifications
    obtain ⟨hcovered, -⟩ := derive_eq_ok_iff.mp h
    have h' : (Dossier.mk dossier.declarations (front ++ x :: back)).derive sets now = .ok _ :=
      derive_eq_ok_iff.mpr ⟨hcovered, rfl⟩
    refine ⟨_, _, h', getElem?_of_derive h' hd, ?_⟩
    rw [hnotifications]
    exact Declaration.decided_insert hx sets now

end Decided

/-- The animals of the mixed load are to go back. -/
def loadRefusal : Notification :=
  ⟨"CHEDA.GB.2025.0000016", .chedA, none, .validated,
    some ⟨some .nonAcceptable, some .reexport, none, none⟩, [], none⟩

/-- The animals of another load are destroyed. -/
def strayRefusal : Notification :=
  ⟨"CHEDA.GB.2025.0000099", .chedA, none, .validated,
    some ⟨some .nonAcceptable, some .destruction, none, none⟩, [], none⟩

/-- The mixed load next to a declaration without goods, of the same MRN. -/
def twoLoads : List Declaration := [{ mixedLoad with commodities := [] }, mixedLoad]

/-- The mixed load is decided in the same way alone, after another decision. The stray refusal
does not show in it. -/
theorem mixedLoad_unconcerned : ∃ decisions alone among decision decision',
    (Dossier.mk twoLoads [loadRefusal]).derive (.standard .standard) .epoch = .ok decisions ∧
    (Dossier.mk [mixedLoad.withDecision (some .blank)] [loadRefusal]).derive
      (.standard .standard) .epoch = .ok alone ∧
    (Dossier.mk twoLoads [strayRefusal, loadRefusal]).derive (.standard .standard) .epoch =
      .ok among ∧
    decisions[1]? = some (mixedLoad.mrn, decision) ∧
    alone[0]? = some (mixedLoad.mrn, decision.at .epoch) ∧
    among[1]? = some (mixedLoad.mrn, decision') ∧
    decision'.items = decision.items ∧ decision'.results = decision.results ∧
    decision'.sourceVersion = decision.sourceVersion := by
  have hderive := Dossier.derive_standard ⟨twoLoads, [loadRefusal]⟩ .standard .epoch
  have halone := Dossier.derive_standard ⟨[mixedLoad.withDecision (some .blank)], [loadRefusal]⟩
    .standard .epoch
  have hforeign : strayRefusal.IsForeignTo mixedLoad :=
    Declaration.isForeignTo_iff.mpr (by decide +kernel)
  have hlinks : ∀ f ∈ mixedLoad.standardFindings .standard [loadRefusal],
      f.notificationReference ≠ some strayRefusal.reference := by decide +kernel
  obtain ⟨decision, hentry, hothers, hinsert⟩ := Dossier.derive_unconcerned (i := 1) hderive rfl
  obtain ⟨among, decision', hamong, hentry', hitems, hresults, hmarker⟩ :=
    hinsert strayRefusal [] [loadRefusal] hforeign rfl
  refine ⟨_, _, among, decision, decision', hderive, halone, hamong, hentry,
    hothers _ 0 _ .epoch _ rfl halone, hentry', hitems, hresults, hmarker ?_⟩
  obtain rfl : mixedLoad.decided (.standard .standard) .epoch [loadRefusal] = decision :=
    congrArg Prod.snd (Option.some.inj hentry)
  intro results hr r hmem
  obtain rfl := Option.some.inj hr
  obtain ⟨f, hf, rfl⟩ := List.mem_map.mp hmem
  rw [Declaration.found_standard] at hf
  exact hlinks f hf

end BorderControl
