import BorderControl.Proofs.Folding
import BorderControl.Proofs.Rereading
import BorderControl.Proofs.Utf8
import BorderControl.Timestamp.Clock

/-!
# What a marker vouches for

The text behind a marker is one of sorted JSON. To sort the names of a value takes nothing
from it that a look-up finds (`Json.member?_sortNames`), and the types that occur in the
text are told apart by it (`TellsApart`), decimals by their scale and sign too. So the text
fixes all that it was made of (`Marker.text_eq_iff`), and with it the decision: if SHA-256
does not collide on the texts, decisions with one marker are alike in items and results
(`Decision.sourceVersion_faithful`).
-/

namespace BorderControl

/-! ## Sorted names -/

namespace Json

/-- The order of members by their names. -/
abbrev nameLe (a b : String × Json) : Bool := a.1 ≤ b.1

theorem isRanking_nameLe : IsRanking nameLe :=
  isRanking_string.comap Prod.fst

theorem sortNamesList_eq : ∀ js : List Json, sortNamesList js = js.map sortNames
  | [] => rfl
  | j :: js => by rw [sortNamesList, sortNamesList_eq js, List.map_cons]

theorem sortNamesMembers_eq : ∀ ms : List (String × Json),
    sortNamesMembers ms = ms.map fun m => (m.1, m.2.sortNames)
  | [] => rfl
  | (n, j) :: ms => by rw [sortNamesMembers, sortNamesMembers_eq ms, List.map_cons]

/-- A look-up finds the last member of its name. -/
theorem lookup_eq_getLast? (name : String) : ∀ ms : List (String × Json),
    lookup name ms = (ms.filter (·.1 == name)).getLast?.map Prod.snd
  | [] => rfl
  | (n, j) :: ms => by
    rw [lookup, lookup_eq_getLast? name ms]
    by_cases hn : n = name
    · rw [List.filter_cons_of_pos (by simpa using hn), List.getLast?_cons, if_pos hn]
      cases (ms.filter (·.1 == name)).getLast? <;> rfl
    · rw [List.filter_cons_of_neg (by simpa using hn), if_neg hn, Option.or_none]

/-- Members of one name keep their order, so the last one stays the last. -/
theorem lookup_sortBy (name : String) (ms : List (String × Json)) :
    lookup name (sortBy nameLe ms) = lookup name ms := by
  have htie : (ms.filter (·.1 == name)).Pairwise fun a b => nameLe a b = true := by
    refine List.pairwise_of_forall_mem_list fun a ha b hb => ?_
    have ha := eq_of_beq (List.mem_filter.mp ha).2
    have hb := eq_of_beq (List.mem_filter.mp hb).2
    simp [nameLe, ha, hb]
  rw [lookup_eq_getLast?, lookup_eq_getLast?, filter_sortBy isRanking_nameLe,
    sortBy_of_pairwise htie]

theorem lookup_map_sortNames (name : String) : ∀ ms : List (String × Json),
    lookup name (ms.map fun m => (m.1, m.2.sortNames)) = (lookup name ms).map sortNames
  | [] => rfl
  | (n, j) :: ms => by
    rw [List.map_cons, lookup, lookup, lookup_map_sortNames name ms]
    cases lookup name ms with
    | some j' => rfl
    | none => by_cases hn : n = name <;> simp [hn]

/-- Sorting the names of a value changes no member but in the order of its names. -/
theorem member?_sortNames (name : String) (j : Json) :
    j.sortNames.member? name = (j.member? name).map sortNames := by
  cases j with
  | obj ms =>
    rw [sortNames, member?, member?, sortNamesMembers_eq, ← lookup_map_sortNames]
    exact lookup_sortBy name _
  | _ => rfl

theorem sortNames_eq_null {j : Json} : j.sortNames = .null ↔ j = .null := by
  cases j <;> simp [sortNames]

theorem Readable.sortNames {k : Nat} {j : Json} (h : j.Readable k) : j.sortNames.Readable k := by
  induction h with
  | null => exact .null _
  | bool => exact .bool _ _
  | int _ n lower upper => exact .int _ n lower upper
  | str => exact .str _ _
  | arr k js _ ih =>
    rw [Json.sortNames, sortNamesList_eq]
    exact .arr k _ (List.forall_mem_map.mpr ih)
  | obj k ms _ ih =>
    rw [Json.sortNames, sortNamesMembers_eq]
    refine .obj k _ fun m hm => ?_
    obtain ⟨m', hm', rfl⟩ := List.mem_map.mp ((perm_sortBy _ _).mem_iff.mp hm)
    exact ih m' hm'

end Json

/-! ## Types told apart -/

/-- Values with one sorted JSON are one value. -/
class TellsApart (α : Type) [JsonForm α] : Prop where
  injective : Function.Injective fun a : α => (toJson a).sortNames

/-- Members of one name tell their values apart. -/
theorem eq_of_member? {α : Type} [JsonForm α] [TellsApart α] {j j' : Json}
    (h : j.sortNames = j'.sortNames) (name : String) {a a' : α}
    (ha : j.member? name = some (toJson a)) (ha' : j'.member? name = some (toJson a')) :
    a = a' := by
  have hmember := congrArg (Json.member? name) h
  rw [Json.member?_sortNames, Json.member?_sortNames, ha, ha'] at hmember
  exact TellsApart.injective (Option.some.inj hmember)

instance : TellsApart String := ⟨fun _ _ h => Json.str.inj h⟩

instance : TellsApart Bool := ⟨fun _ _ h => Json.bool.inj h⟩

instance : TellsApart UInt32 :=
  ⟨fun _ _ h => UInt32.toNat_inj.mp (Int.ofNat.inj (Json.int.inj h))⟩

instance : TellsApart Decimal := ⟨fun _ _ h => Decimal.text_injective (Json.str.inj h)⟩

instance : TellsApart Timestamp where
  injective t t' h := by
    have htext : t.text = t'.text := Json.str.inj h
    have hread := Timestamp.ofText?_text t
    rw [htext, Timestamp.ofText?_text] at hread
    exact (Option.some.inj hread).symm

instance {α : Type} [Vocabulary α] [LawfulVocabulary α] : TellsApart α where
  injective a a' h := by
    have hword : Vocabulary.word a = Vocabulary.word a' := Json.str.inj h
    have hread := ofWord?_word a
    rw [hword, ofWord?_word] at hread
    exact (Option.some.inj hread).symm

instance {α : Type} [JsonForm α] [NeverNull α] [TellsApart α] : TellsApart (Option α) where
  injective := by
    have hsome : ∀ a : α, (toJson a).sortNames ≠ .null := fun a ha =>
      toJson_ne_null a (Json.sortNames_eq_null.mp ha)
    rintro (_ | a) (_ | a') h
    · rfl
    · exact absurd h.symm (hsome a')
    · exact absurd h (hsome a)
    · exact congrArg some (TellsApart.injective h)

instance {α : Type} [JsonForm α] [TellsApart α] : TellsApart (List α) where
  injective as as' h := by
    have hlist : (as.map toJson).map Json.sortNames = (as'.map toJson).map Json.sortNames := by
      rw [← Json.sortNamesList_eq, ← Json.sortNamesList_eq]
      exact Json.arr.inj h
    rw [List.map_map, List.map_map] at hlist
    exact List.map_injective_iff.mpr TellsApart.injective hlist

/-! ### Records -/

instance : TellsApart Finalisation where
  injective a b h := by
    cases a; cases b
    rw [Finalisation.mk.injEq]
    exact ⟨eq_of_member? h "final_state" rfl rfl, eq_of_member? h "is_manual_release" rfl rfl⟩

instance : TellsApart Document where
  injective a b h := by
    cases a; cases b
    rw [Document.mk.injEq]
    exact ⟨eq_of_member? h "document_code" rfl rfl, eq_of_member? h "document_reference" rfl rfl⟩

instance : TellsApart Check where
  injective a b h := by
    cases a; cases b
    rw [Check.mk.injEq]
    exact eq_of_member? h "check_code" rfl rfl

instance : TellsApart Commodity where
  injective a b h := by
    cases a; cases b
    rw [Commodity.mk.injEq]
    exact ⟨eq_of_member? h "item_number" rfl rfl, eq_of_member? h "commodity_code" rfl rfl,
      eq_of_member? h "description" rfl rfl, eq_of_member? h "net_mass" rfl rfl,
      eq_of_member? h "documents" rfl rfl, eq_of_member? h "checks" rfl rfl⟩

instance : TellsApart Finding where
  injective a b h := by
    cases a; cases b
    rw [Finding.mk.injEq]
    exact ⟨eq_of_member? h "mrn" rfl rfl, eq_of_member? h "item_number" rfl rfl,
      eq_of_member? h "document_reference" rfl rfl, eq_of_member? h "document_code" rfl rfl,
      eq_of_member? h "check_code" rfl rfl, eq_of_member? h "notification_reference" rfl rfl,
      eq_of_member? h "decision_code" rfl rfl, eq_of_member? h "internal_code" rfl rfl,
      eq_of_member? h "reasons" rfl rfl⟩

namespace Notification

instance : TellsApart FishingControl where
  injective a b h := by
    cases a; cases b
    rw [FishingControl.mk.injEq]
    exact ⟨eq_of_member? h "check_required" rfl rfl, eq_of_member? h "option" rfl rfl⟩

instance : TellsApart PartTwo where
  injective a b h := by
    cases a; cases b
    rw [PartTwo.mk.injEq]
    exact ⟨eq_of_member? h "decision" rfl rfl, eq_of_member? h "not_acceptable_action" rfl rfl,
      eq_of_member? h "inspection_required" rfl rfl, eq_of_member? h "iuu" rfl rfl⟩

instance : TellsApart Line where
  injective a b h := by
    cases a; cases b
    rw [Line.mk.injEq]
    exact ⟨eq_of_member? h "commodity_code" rfl rfl, eq_of_member? h "description" rfl rfl,
      eq_of_member? h "net_weight" rfl rfl⟩

end Notification

instance : NeverNull Notification := ⟨fun _ => nofun⟩

instance : TellsApart Notification where
  injective a b h := by
    cases a; cases b
    rw [Notification.mk.injEq]
    exact ⟨eq_of_member? h "reference_number" rfl rfl,
      eq_of_member? h "certificate_type" rfl rfl, eq_of_member? h "version" rfl rfl,
      eq_of_member? h "status" rfl rfl, eq_of_member? h "part_two" rfl rfl,
      eq_of_member? h "commodities" rfl rfl, eq_of_member? h "updated" rfl rfl⟩

/-! ## The text of a marker -/

namespace Marker

variable {d d' : Declaration} {notifications notifications' : List Notification}
  {findings findings' : List Finding}

/-- The declarations are alike but for the decision they carry, the findings are equal, and
so is the first notification of every reference that a finding is linked to, if there is
one. -/
structure SameSource (d d' : Declaration) (notifications notifications' : List Notification)
    (findings findings' : List Finding) : Prop where
  mrn : d.mrn = d'.mrn
  version : d.version = d'.version
  finalisation : d.finalisation = d'.finalisation
  commodities : d.commodities = d'.commodities
  consulted : ∀ reference, (∃ f ∈ findings, f.notificationReference = some reference) →
    notifications.find? (·.reference == reference) =
      notifications'.find? (·.reference == reference)
  findings : findings = findings'

theorem readable_source : (source d notifications findings).Readable Json.maxDepth := by
  have hconsulted : (Json.obj ((consulted notifications findings).map
      fun x => (x.1, toJson x.2))).Readable 4 := by
    refine .obj 3 _ fun m hm => ?_
    obtain ⟨x, -, rfl⟩ := List.mem_map.mp hm
    exact readable x.2
  refine Json.Readable.mono (.obj 4 _ ?_) (by decide)
  simp [readable_of_le, hconsulted.mono]

theorem lookup_map (g : String → Json) (name : String) : ∀ names : List String,
    Json.lookup name (names.map fun n => (n, g n)) =
      if name ∈ names then some (g name) else none
  | [] => rfl
  | n :: names => by
    rw [List.map_cons, Json.lookup, lookup_map g name names]
    by_cases hrest : name ∈ names
    · simp [hrest]
    · rcases eq_or_ne name n with rfl | hn
      · simp [hrest]
      · simp [hrest, hn, hn.symm]

theorem lookup_consulted {reference : String}
    (h : ∃ f ∈ findings, f.notificationReference = some reference) :
    Json.lookup reference ((consulted notifications findings).map fun (r, n) => (r, toJson n)) =
      some (toJson (notifications.find? (·.reference == reference))) := by
  rw [consulted, List.map_map]
  refine (lookup_map (fun r => toJson (notifications.find? (·.reference == r)))
    reference _).trans ?_
  rw [if_pos (by rwa [mem_distinct, List.mem_filterMap])]

/-- The text depends on its source, and fixes it. -/
theorem text_eq_iff : text d notifications findings = text d' notifications' findings' ↔
    SameSource d d' notifications notifications' findings findings' := by
  constructor
  · intro h
    have hsource : (source d notifications findings).sortNames =
        (source d' notifications' findings').sortNames :=
      Json.compactText_injective readable_source.sortNames readable_source.sortNames h
    have hfindings : findings = findings' := eq_of_member? hsource "outcomes" rfl rfl
    refine ⟨eq_of_member? hsource "mrn" rfl rfl, eq_of_member? hsource "version" rfl rfl,
      eq_of_member? hsource "finalisation" rfl rfl, eq_of_member? hsource "commodities" rfl rfl,
      fun reference hlinked => ?_, hfindings⟩
    have hmember := congrArg (Json.member? "notifications") hsource
    rw [Json.member?_sortNames, Json.member?_sortNames] at hmember
    exact eq_of_member? (Option.some.inj hmember) reference (lookup_consulted hlinked)
      (lookup_consulted (hfindings ▸ hlinked))
  · rintro ⟨hmrn, hversion, hfinalisation, hcommodities, hconsulted, rfl⟩
    have hnotifications : consulted notifications findings = consulted notifications' findings := by
      refine List.map_congr_left fun reference hlinked => ?_
      rw [mem_distinct, List.mem_filterMap] at hlinked
      rw [hconsulted reference hlinked]
    rw [text, text, source, source, hmrn, hversion, hfinalisation, hcommodities, hnotifications]

end Marker

/-! ## The hash of a marker -/

/-- The hash is one of the characters of the text, without the detour over texts and arrays of
bytes, which take long to evaluate. -/
theorem marker_eq (d : Declaration) (notifications : List Notification)
    (findings : List Finding) :
    marker d notifications findings = sha256Hex ((Json.write .compact 0
      (Marker.source d notifications findings).sortNames).flatMap String.utf8EncodeChar) := by
  rw [marker, Marker.text, Json.compactText, toList_toUTF8]

/-- A marker can be trusted. Its text fixes what the decision is derived from; so where
SHA-256 does not collide on the texts, decisions with one marker have the same items and
results. -/
theorem Decision.sourceVersion_faithful (d d' : Declaration)
    (notifications notifications' : List Notification) (findings findings' : List Finding)
    (now now' : Timestamp) :
    (Marker.text d notifications findings = Marker.text d' notifications' findings' →
      Marker.SameSource d d' notifications notifications' findings findings') ∧
    ((sha256Hex (Marker.text d notifications findings).toUTF8.toList =
        sha256Hex (Marker.text d' notifications' findings').toUTF8.toList →
        Marker.text d notifications findings = Marker.text d' notifications' findings') →
      (build now d notifications findings).sourceVersion =
        (build now' d' notifications' findings').sourceVersion →
      (build now d notifications findings).items =
          (build now' d' notifications' findings').items ∧
        (build now d notifications findings).results =
          (build now' d' notifications' findings').results) := by
  refine ⟨Marker.text_eq_iff.mp, fun hcollision hmarker => ?_⟩
  have htext := hcollision (Option.some.inj hmarker)
  obtain rfl := (Marker.text_eq_iff.mp htext).findings
  exact ⟨rfl, rfl⟩

/-- A notification of horses without an assessment. -/
def stable (number : String) : Notification where
  reference := "CHEDA.GB.2025." ++ number
  certificate := .chedA
  version := none
  status := .submitted
  partTwo := none
  lines := [⟨"0101", none, some ⟨false, 41250, 2, by decide, by decide⟩⟩]
  updated := none

def horses : Declaration where
  mrn := "25GB00000000000011"
  version := some 1
  finalisation := none
  commodities := [⟨1, some "0101210000", none, none, [⟨"C640", "GBCHD2025.0000001"⟩], [⟨"H221"⟩]⟩]
  decision := none

def horsesHeld : Finding where
  mrn := "25GB00000000000011"
  itemNumber := 1
  documentReference := some "GBCHD2025.0000001"
  documentCode := some "C640"
  checkCode := "H221"
  notificationReference := some "CHEDA.GB.2025.0000001"
  decisionCode := .h01
  detailCode := none
  reasons := []

/-- Neither the decision kept from an earlier run nor a notification that no finding is
linked to has a part in the marker. -/
theorem horses_marker_faithful :
    Marker.SameSource horses { horses with decision := some .blank } [stable "0000001"]
        [stable "0000001", stable "0000002"] [horsesHeld] [horsesHeld] ∧
      (Decision.build .epoch horses [stable "0000001"] [horsesHeld]).items =
        (Decision.build .epoch { horses with decision := some .blank }
          [stable "0000001", stable "0000002"] [horsesHeld]).items ∧
      (Decision.build .epoch horses [stable "0000001"] [horsesHeld]).results =
        (Decision.build .epoch { horses with decision := some .blank }
          [stable "0000001", stable "0000002"] [horsesHeld]).results := by
  have htext : Marker.text horses [stable "0000001"] [horsesHeld] =
      Marker.text { horses with decision := some .blank }
        [stable "0000001", stable "0000002"] [horsesHeld] := by
    refine Marker.text_eq_iff.mpr ⟨rfl, rfl, rfl, rfl, fun reference hlinked => ?_, rfl⟩
    obtain ⟨f, hf, hreference⟩ := hlinked
    obtain rfl := List.mem_singleton.mp hf
    obtain rfl := Option.some.inj hreference
    rfl
  obtain ⟨hsource, hsame⟩ := Decision.sourceVersion_faithful horses
    { horses with decision := some .blank } [stable "0000001"]
    [stable "0000001", stable "0000002"] [horsesHeld] [horsesHeld] .epoch .epoch
  exact ⟨hsource htext, hsame (fun _ => htext) (congrArg some (by rw [marker, marker, htext]))⟩

end BorderControl
