import BorderControl.Proofs.Rereading
import Mathlib.Data.List.Forall2

/-!
# What loading accepts

The shape of a dossier is said in full down to the items of its declarations
(`Dossier.IsGivenBy`): which members count, which may be left out, and that a list has an
entry for each element, in their order. The reader takes in what has this shape, as what it
is (`Dossier.ofJson_eq_ok_iff`).

A declaration is valid, or offends in one way (`Declaration.checkItems_eq_ok_iff`,
`Declaration.checkItems_eq_error_iff`). Of several that offend the first decides
(`forM_eq_error_iff`). `Dossier.load_judges` puts this together for every JSON value.
-/

namespace BorderControl

/-! ## Fields of a value -/

namespace Json

/-- The member `name` that counts, the last of that name, has the value `j`. -/
def Counts (name : String) (members : List (String × Json)) (j : Json) : Prop :=
  ∃ front back, members = front ++ (name, j) :: back ∧ ∀ m ∈ back, m.1 ≠ name

theorem lookup_eq_none_iff {name : String} : ∀ {members : List (String × Json)},
    lookup name members = none ↔ ∀ m ∈ members, m.1 ≠ name
  | [] => iff_of_true rfl (List.forall_mem_nil _)
  | (n, j) :: members => by
    rw [lookup, Option.or_eq_none_iff, lookup_eq_none_iff, List.forall_mem_cons]
    simp [and_comm]

theorem lookup_append (name : String) : ∀ front back : List (String × Json),
    lookup name (front ++ back) = (lookup name back).or (lookup name front)
  | [], back => (Option.or_none).symm
  | (n, j) :: front, back => by
    rw [List.cons_append, lookup, lookup, lookup_append name front back, Option.or_assoc]

theorem lookup_eq_some_iff {name : String} {members : List (String × Json)} {j : Json} :
    lookup name members = some j ↔ Counts name members j := by
  constructor
  · intro h
    induction members with
    | nil => cases h
    | cons m members ih =>
      obtain ⟨n, v⟩ := m
      rw [lookup, Option.or_eq_some_iff] at h
      rcases h with h | ⟨hrest, h⟩
      · obtain ⟨front, back, rfl, hback⟩ := ih h
        exact ⟨(n, v) :: front, back, rfl, hback⟩
      · split at h
        · next hn =>
          cases h
          exact ⟨[], members, by rw [hn, List.nil_append], lookup_eq_none_iff.mp hrest⟩
        · cases h
  · rintro ⟨front, back, rfl, hback⟩
    rw [lookup_append, lookup, lookup_eq_none_iff.mpr hback, if_pos rfl]
    rfl

/-- The value is read as `a`. -/
def ReadAs {α : Type} [JsonForm α] (j : Json) (a : α) : Prop := ofJson? j = some a

section

variable {α : Type} (R : Json → α → Prop) (name : String) (members : List (String × Json))

/-- The field `name`, which must be there, stands for `a`. -/
def HasField (a : α) : Prop := ∃ j, Counts name members j ∧ R j a

/-- The field `name` stands for a value, which is `default` if the field is left out. -/
inductive HasFieldOr (default : α) : α → Prop
  | leftOut (absent : ∀ m ∈ members, m.1 ≠ name) : HasFieldOr default default
  | given {j : Json} {a : α} (counts : Counts name members j) (reads : R j a) :
    HasFieldOr default a

/-- The elements of the array stand for the entries of the list, one each, in this order. -/
def ListOf (j : Json) (as : List α) : Prop := ∃ js, j = .arr js ∧ List.Forall₂ R js as

end

variable {α : Type} [JsonForm α] {R : Json → α → Prop} {name : String}
  {members : List (String × Json)}

theorem field_eq_some_iff (hR : ∀ {j a}, ofJson? j = some a ↔ R j a) {a : α} :
    field name members = some a ↔ HasField R name members a := by
  simp only [field, HasField, Option.bind_eq_some_iff, lookup_eq_some_iff, hR]

theorem fieldOr_eq_some_iff (hR : ∀ {j a}, ofJson? j = some a ↔ R j a) {default a : α} :
    fieldOr default name members = some a ↔ HasFieldOr R name members default a := by
  rw [fieldOr]
  constructor
  · intro h
    split at h
    · next hnone =>
      cases h
      exact .leftOut (lookup_eq_none_iff.mp hnone)
    · next j hsome => exact .given (lookup_eq_some_iff.mp hsome) (hR.mp h)
  · rintro (habsent | ⟨hcounts, hreads⟩)
    · rw [lookup_eq_none_iff.mpr habsent]
    · rw [lookup_eq_some_iff.mpr hcounts]
      exact hR.mpr hreads

theorem mapM_eq_some_iff {β γ : Type} {f : β → Option γ} : ∀ {bs : List β} {cs : List γ},
    bs.mapM f = some cs ↔ List.Forall₂ (fun b c => f b = some c) bs cs
  | [], cs => by simp [eq_comm]
  | b :: bs, cs => by
    simp only [List.mapM_cons, Option.bind_eq_bind, Option.bind_eq_some_iff, Option.pure_def,
      Option.some.injEq, mapM_eq_some_iff, List.forall₂_cons_left_iff]
    constructor
    · rintro ⟨c, hc, cs', hcs, rfl⟩
      exact ⟨c, cs', hc, hcs, rfl⟩
    · rintro ⟨c, cs', hc, hcs, rfl⟩
      exact ⟨c, hc, cs', hcs, rfl⟩

theorem listOf_iff (hR : ∀ {j a}, ofJson? j = some a ↔ R j a) {j : Json} {as : List α} :
    ofJson? j = some as ↔ ListOf R j as := by
  have hread : ∀ js : List Json, ofJson? (.arr js) = some as ↔ List.Forall₂ R js as := by
    intro js
    simp only [JsonForm.ofJson?, mapM_eq_some_iff]
    exact ⟨List.Forall₂.imp fun _ _ => hR.mp, List.Forall₂.imp fun _ _ => hR.mpr⟩
  constructor
  · intro h
    cases j with
    | arr js => exact ⟨js, rfl, (hread js).mp h⟩
    | _ => cases h
  · rintro ⟨js, rfl, h⟩
    exact (hread js).mpr h

end Json

/-! ## The shape of a dossier -/

/-- The fields of an item, of which the number must be there. -/
structure Commodity.HasFields (members : List (String × Json)) (c : Commodity) : Prop where
  itemNumber : Json.HasField Json.ReadAs "item_number" members c.itemNumber
  commodityCode : Json.HasFieldOr Json.ReadAs "commodity_code" members none c.commodityCode
  description : Json.HasFieldOr Json.ReadAs "description" members none c.description
  netMass : Json.HasFieldOr Json.ReadAs "net_mass" members none c.netMass
  documents : Json.HasFieldOr (Json.ListOf Json.ReadAs) "documents" members [] c.documents
  checks : Json.HasFieldOr (Json.ListOf Json.ReadAs) "checks" members [] c.checks

def Commodity.IsGivenBy (j : Json) (c : Commodity) : Prop :=
  ∃ members, j.record? ["item_number", "commodity_code", "description", "net_mass",
    "documents", "checks"] = some members ∧ c.HasFields members

theorem Commodity.ofJson?_eq_some_iff {j : Json} {c : Commodity} :
    ofJson? j = some c ↔ c.IsGivenBy j := by
  simp only [JsonForm.ofJson?, Option.bind_eq_bind, Option.bind_eq_some_iff]
  refine exists_congr fun members => and_congr_right fun _ => ⟨?_, fun h => ?_⟩
  · rintro ⟨_, hnumber, _, hcode, _, hdescription, _, hmass, _, hdocuments, _, hchecks, ⟨⟩⟩
    exact {
      itemNumber := (Json.field_eq_some_iff Iff.rfl).mp hnumber
      commodityCode := (Json.fieldOr_eq_some_iff Iff.rfl).mp hcode
      description := (Json.fieldOr_eq_some_iff Iff.rfl).mp hdescription
      netMass := (Json.fieldOr_eq_some_iff Iff.rfl).mp hmass
      documents := (Json.fieldOr_eq_some_iff (Json.listOf_iff Iff.rfl)).mp hdocuments
      checks := (Json.fieldOr_eq_some_iff (Json.listOf_iff Iff.rfl)).mp hchecks }
  · exact ⟨_, (Json.field_eq_some_iff Iff.rfl).mpr h.itemNumber,
      _, (Json.fieldOr_eq_some_iff Iff.rfl).mpr h.commodityCode,
      _, (Json.fieldOr_eq_some_iff Iff.rfl).mpr h.description,
      _, (Json.fieldOr_eq_some_iff Iff.rfl).mpr h.netMass,
      _, (Json.fieldOr_eq_some_iff (Json.listOf_iff Iff.rfl)).mpr h.documents,
      _, (Json.fieldOr_eq_some_iff (Json.listOf_iff Iff.rfl)).mpr h.checks, rfl⟩

/-- The fields of a declaration, of which the MRN must be there. -/
structure Declaration.HasFields (members : List (String × Json)) (d : Declaration) : Prop where
  mrn : Json.HasField Json.ReadAs "mrn" members d.mrn
  version : Json.HasFieldOr Json.ReadAs "version" members none d.version
  finalisation : Json.HasFieldOr Json.ReadAs "finalisation" members none d.finalisation
  commodities : Json.HasFieldOr (Json.ListOf Commodity.IsGivenBy) "commodities" members []
    d.commodities
  decision : Json.HasFieldOr Json.ReadAs "decision" members none d.decision

def Declaration.IsGivenBy (j : Json) (d : Declaration) : Prop :=
  ∃ members, j.record? ["mrn", "version", "finalisation", "commodities", "decision"] =
    some members ∧ d.HasFields members

theorem Declaration.ofJson?_eq_some_iff {j : Json} {d : Declaration} :
    ofJson? j = some d ↔ d.IsGivenBy j := by
  simp only [JsonForm.ofJson?, Option.bind_eq_bind, Option.bind_eq_some_iff]
  refine exists_congr fun members => and_congr_right fun _ => ⟨?_, fun h => ?_⟩
  · rintro ⟨_, hmrn, _, hversion, _, hfinalisation, _, hcommodities, _, hdecision, ⟨⟩⟩
    exact {
      mrn := (Json.field_eq_some_iff Iff.rfl).mp hmrn
      version := (Json.fieldOr_eq_some_iff Iff.rfl).mp hversion
      finalisation := (Json.fieldOr_eq_some_iff Iff.rfl).mp hfinalisation
      commodities := (Json.fieldOr_eq_some_iff
        (Json.listOf_iff Commodity.ofJson?_eq_some_iff)).mp hcommodities
      decision := (Json.fieldOr_eq_some_iff Iff.rfl).mp hdecision }
  · exact ⟨_, (Json.field_eq_some_iff Iff.rfl).mpr h.mrn,
      _, (Json.fieldOr_eq_some_iff Iff.rfl).mpr h.version,
      _, (Json.fieldOr_eq_some_iff Iff.rfl).mpr h.finalisation,
      _, (Json.fieldOr_eq_some_iff
        (Json.listOf_iff Commodity.ofJson?_eq_some_iff)).mpr h.commodities,
      _, (Json.fieldOr_eq_some_iff Iff.rfl).mpr h.decision, rfl⟩

/-- The value is an object that names a list of a dossier, whatever it gives as the list. -/
def Json.NamesLists (j : Json) : Prop :=
  ∃ members, j = .obj members ∧ ∃ m ∈ members, m.1 = "declarations" ∨ m.1 = "notifications"

theorem Json.member?_isSome_iff {j : Json} {name : String} :
    (j.member? name).isSome ↔ ∃ members, j = .obj members ∧ ∃ m ∈ members, m.1 = name := by
  cases j with
  | obj members =>
    rw [member?, ← Option.ne_none_iff_isSome, Ne, lookup_eq_none_iff]
    simp
  | _ => simp [member?]

theorem Json.namesLists_iff {j : Json} : j.NamesLists ↔
    ((j.member? "declarations").isSome || (j.member? "notifications").isSome) = true := by
  rw [Bool.or_eq_true, member?_isSome_iff, member?_isSome_iff]
  constructor
  · rintro ⟨members, hj, m, hm, hname | hname⟩
    · exact .inl ⟨members, hj, m, hm, hname⟩
    · exact .inr ⟨members, hj, m, hm, hname⟩
  · rintro (⟨members, hj, m, hm, hname⟩ | ⟨members, hj, m, hm, hname⟩)
    · exact ⟨members, hj, m, hm, .inl hname⟩
    · exact ⟨members, hj, m, hm, .inr hname⟩

namespace Dossier

/-- A dossier is given by its lists, or as a single declaration. -/
inductive IsGivenBy (j : Json) : Dossier → Prop
  | lists {members : List (String × Json)} {dossier : Dossier}
    (names : j.NamesLists) (object : j = .obj members)
    (declarations : Json.HasFieldOr (Json.ListOf Declaration.IsGivenBy) "declarations" members []
      dossier.declarations)
    (notifications : Json.HasFieldOr (Json.ListOf Json.ReadAs) "notifications" members []
      dossier.notifications) : IsGivenBy j dossier
  | single {declaration : Declaration} (names : ¬ j.NamesLists)
    (given : declaration.IsGivenBy j) : IsGivenBy j ⟨[declaration], []⟩

theorem ofJson?_eq_some_iff {members : List (String × Json)} {dossier : Dossier} :
    ofJson? (.obj members) = some dossier ↔
      Json.HasFieldOr (Json.ListOf Declaration.IsGivenBy) "declarations" members []
          dossier.declarations ∧
        Json.HasFieldOr (Json.ListOf Json.ReadAs) "notifications" members []
          dossier.notifications := by
  simp only [JsonForm.ofJson?, Option.bind_eq_bind, Option.bind_eq_some_iff, Json.record?]
  constructor
  · rintro ⟨_, ⟨⟩, _, hdeclarations, _, hnotifications, ⟨⟩⟩
    exact ⟨(Json.fieldOr_eq_some_iff
        (Json.listOf_iff Declaration.ofJson?_eq_some_iff)).mp hdeclarations,
      (Json.fieldOr_eq_some_iff (Json.listOf_iff Iff.rfl)).mp hnotifications⟩
  · rintro ⟨hdeclarations, hnotifications⟩
    exact ⟨members, rfl, _, (Json.fieldOr_eq_some_iff
        (Json.listOf_iff Declaration.ofJson?_eq_some_iff)).mpr hdeclarations,
      _, (Json.fieldOr_eq_some_iff (Json.listOf_iff Iff.rfl)).mpr hnotifications, rfl⟩

/-- What is read of a value is the dossier that it gives, if it gives one. -/
theorem ofJson_eq_ok_iff {j : Json} {dossier : Dossier} :
    ofJson j = .ok dossier ↔ dossier.IsGivenBy j := by
  rw [ofJson]
  constructor
  · intro h
    split at h
    · next hnames =>
      have hnames := Json.namesLists_iff.mpr hnames
      obtain ⟨members, rfl, -⟩ := id hnames
      split at h
      · next hread =>
        cases h
        obtain ⟨hdeclarations, hnotifications⟩ := ofJson?_eq_some_iff.mp hread
        exact .lists hnames rfl hdeclarations hnotifications
      · cases h
    · next hnames =>
      split at h
      · next hread =>
        cases h
        exact .single (fun h => hnames (Json.namesLists_iff.mp h))
          (Declaration.ofJson?_eq_some_iff.mp hread)
      · cases h
  · rintro (⟨hnames, rfl, hdeclarations, hnotifications⟩ | ⟨hnames, hgiven⟩)
    · rw [if_pos (Json.namesLists_iff.mp hnames),
        ofJson?_eq_some_iff.mpr ⟨hdeclarations, hnotifications⟩]
    · rw [if_neg (fun h => hnames (Json.namesLists_iff.mpr h)),
        Declaration.ofJson?_eq_some_iff.mpr hgiven]

end Dossier

/-! ## Declarations that offend -/

theorem firstRepeated?_eq_none_iff : ∀ {ns seen : List UInt32},
    firstRepeated? seen ns = none ↔ ns.Nodup ∧ ∀ n ∈ ns, n ∉ seen
  | [], _ => iff_of_true rfl ⟨List.nodup_nil, List.forall_mem_nil _⟩
  | n :: ns, seen => by
    rw [firstRepeated?, List.nodup_cons, List.forall_mem_cons]
    split
    · next hn => exact iff_of_false nofun (fun h => h.2.1 hn)
    · next hn =>
      rw [firstRepeated?_eq_none_iff]
      grind

/-- What is found is the first number that repeats one further left, or one in `seen`. -/
theorem firstRepeated?_eq_some_iff {n : UInt32} : ∀ {ns seen : List UInt32},
    firstRepeated? seen ns = some n ↔ ∃ front back, ns = front ++ n :: back ∧
      front.Nodup ∧ (∀ m ∈ front, m ∉ seen) ∧ (n ∈ seen ∨ n ∈ front)
  | [], _ => by simp [firstRepeated?]
  | m :: ns, seen => by
    rw [firstRepeated?]
    split
    · next hm =>
      constructor
      · rintro ⟨⟩
        exact ⟨[], ns, rfl, List.nodup_nil, List.forall_mem_nil _, .inl hm⟩
      · rintro ⟨_ | ⟨m', front⟩, back, hsplit, -, hfresh, -⟩
        · rw [(List.cons.inj hsplit).1]
        · cases hsplit
          exact absurd hm (hfresh m List.mem_cons_self)
    · next hm =>
      -- The number passed over goes into `seen`; here it heads what stands before the one found.
      rw [firstRepeated?_eq_some_iff]
      constructor
      · rintro ⟨front, back, rfl, hnodup, hfresh, hn⟩
        refine ⟨m :: front, back, rfl, ?_, ?_, ?_⟩ <;> grind
      · rintro ⟨_ | ⟨m', front⟩, back, hsplit, hnodup, hfresh, hn⟩
        · cases hsplit
          exact absurd hn (by simpa using hm)
        · cases hsplit
          refine ⟨front, back, rfl, ?_, ?_, ?_⟩ <;> grind

namespace Text

theorem allBlank_iff {s : String} :
    allBlank s = true ↔ ∀ c ∈ s.toList, isBlank c = true :=
  List.all_eq_true

theorem not_allBlank_iff {s : String} :
    ¬ allBlank s = true ↔ ∃ c ∈ s.toList, isBlank c = false := by
  simp [allBlank_iff]

end Text

namespace Declaration

variable {d : Declaration}

/-- A declaration has an MRN that is not blank, and no item number twice. -/
structure IsValid (d : Declaration) : Prop where
  mrn : ∃ c ∈ d.mrn.toList, Text.isBlank c = false
  items : (d.commodities.map (·.itemNumber)).Nodup

/-- A blank MRN counts before the items, of which the first that repeats a number counts. -/
inductive Offends (d : Declaration) : LoadError → Prop
  | missingMrn (blank : ∀ c ∈ d.mrn.toList, Text.isBlank c = true) : Offends d .missingMrn
  | duplicateItem {front back : List UInt32} {n : UInt32}
    (mrn : ∃ c ∈ d.mrn.toList, Text.isBlank c = false)
    (items : d.commodities.map (·.itemNumber) = front ++ n :: back)
    (first : front.Nodup) (repeated : n ∈ front) : Offends d (.duplicateItem d.mrn n)

theorem checkItems_eq_ok_iff : d.checkItems = .ok () ↔ d.IsValid := by
  constructor
  · intro h
    rw [checkItems] at h
    split at h
    · cases h
    · next hmrn =>
      split at h
      · cases h
      · next hnone =>
        exact ⟨Text.not_allBlank_iff.mp hmrn, (firstRepeated?_eq_none_iff.mp hnone).1⟩
  · rintro ⟨hmrn, hitems⟩
    rw [checkItems, if_neg (Text.not_allBlank_iff.mpr hmrn),
      firstRepeated?_eq_none_iff.mpr ⟨hitems, fun _ _ => List.not_mem_nil⟩]

theorem checkItems_eq_error_iff {e : LoadError} : d.checkItems = .error e ↔ d.Offends e := by
  constructor
  · intro h
    rw [checkItems] at h
    split at h
    · next hblank =>
      cases h
      exact .missingMrn (Text.allBlank_iff.mp hblank)
    · next hmrn =>
      split at h
      · next n hfound =>
        cases h
        obtain ⟨front, back, hitems, hfirst, -, hrepeated⟩ := firstRepeated?_eq_some_iff.mp hfound
        exact .duplicateItem (Text.not_allBlank_iff.mp hmrn) hitems hfirst
          (hrepeated.resolve_left List.not_mem_nil)
      · cases h
  · rintro (hblank | ⟨hmrn, hitems, hfirst, hrepeated⟩)
    · rw [checkItems, if_pos (Text.allBlank_iff.mpr hblank)]
    · rw [checkItems, if_neg (Text.not_allBlank_iff.mpr hmrn), firstRepeated?_eq_some_iff.mpr
        ⟨_, _, hitems, hfirst, fun _ _ => List.not_mem_nil, .inr hrepeated⟩]

end Declaration

/-! ## The first that offends -/

/-- A check of a list fails as it does for the first entry that fails. -/
theorem forM_eq_error_iff {α ε : Type} {f : α → Except ε Unit} {e : ε} :
    ∀ {l : List α}, l.forM f = .error e ↔
      ∃ front a back, l = front ++ a :: back ∧ (∀ x ∈ front, f x = .ok ()) ∧ f a = .error e
  | [] => by
    refine iff_of_false nofun ?_
    rintro ⟨front, a, back, h, -⟩
    simp at h
  | a :: l => by
    rw [List.forM.eq_def]
    dsimp only
    cases ha : f a with
    | error e' =>
      constructor
      · rintro ⟨⟩
        exact ⟨[], a, l, rfl, List.forall_mem_nil _, ha⟩
      · rintro ⟨_ | ⟨a', front⟩, x, back, hsplit, hfront, hx⟩
        · cases hsplit
          exact ha.symm.trans hx
        · cases hsplit
          cases ha.symm.trans (hfront a List.mem_cons_self)
    | ok u =>
      refine Iff.trans forM_eq_error_iff ⟨?_, ?_⟩
      · rintro ⟨front, x, back, rfl, hfront, hx⟩
        exact ⟨a :: front, x, back, rfl, List.forall_mem_cons.mpr ⟨ha, hfront⟩, hx⟩
      · rintro ⟨_ | ⟨a', front⟩, x, back, hsplit, hfront, hx⟩
        · cases hsplit
          cases ha.symm.trans hx
        · cases hsplit
          exact ⟨front, x, back, rfl, (List.forall_mem_cons.mp hfront).2, hx⟩

namespace Dossier

theorem ofJson_of_shape {j : Json} (h : ∀ dossier : Dossier, ¬ dossier.IsGivenBy j) :
    (j.NamesLists → ofJson j = .error (.shape .dossier)) ∧
      (¬ j.NamesLists → ofJson j = .error (.shape .declaration)) := by
  have hread : ∀ dossier, ofJson j ≠ .ok dossier := fun dossier =>
    mt ofJson_eq_ok_iff.mp (h dossier)
  constructor
  · intro hnames
    rw [ofJson, if_pos (Json.namesLists_iff.mp hnames)] at hread ⊢
    split at hread
    · exact absurd rfl (hread _)
    · rfl
  · intro hnames
    rw [ofJson, if_neg (mt Json.namesLists_iff.mpr hnames)] at hread ⊢
    split at hread
    · exact absurd rfl (hread _)
    · rfl

theorem load_of_ofJson_error {j : Json} {e : LoadError} (h : ofJson j = .error e) :
    load j = .error e := by
  rw [load, h]
  rfl

theorem load_eq_error_iff {j : Json} {dossier : Dossier} (h : ofJson j = .ok dossier)
    {e : LoadError} :
    load j = .error e ↔ dossier.declarations.forM Declaration.checkItems = .error e := by
  have hload : load j =
      (dossier.declarations.forM Declaration.checkItems).map fun _ => dossier := by
    rw [load, h]
    rfl
  rw [hload]
  cases dossier.declarations.forM Declaration.checkItems with
  | error e' => simp [Except.map]
  | ok u => simp [Except.map]

/-- What loading makes of a value.

It takes in what has the shape of a dossier and valid declarations, as what it is. Of
declarations that are not valid the first decides the error. A value of another shape is
reported as one, as a dossier if it names a list of one. -/
theorem load_judges (j : Json) :
    (∀ dossier : Dossier, load j = .ok dossier ↔
      dossier.IsGivenBy j ∧ ∀ d ∈ dossier.declarations, d.IsValid) ∧
    (∀ dossier : Dossier, dossier.IsGivenBy j → ∀ e, load j = .error e ↔
      ∃ front d back, dossier.declarations = front ++ d :: back ∧
        (∀ x ∈ front, x.IsValid) ∧ d.Offends e) ∧
    ((∀ dossier : Dossier, ¬ dossier.IsGivenBy j) →
      (j.NamesLists → load j = .error (.shape .dossier)) ∧
      (¬ j.NamesLists → load j = .error (.shape .declaration))) := by
  refine ⟨fun dossier => ?_, fun dossier hgiven e => ?_, fun hshape => ?_⟩
  · simp only [load_eq_ok_iff, ofJson_eq_ok_iff, Declaration.checkItems_eq_ok_iff]
  · rw [load_eq_error_iff (ofJson_eq_ok_iff.mpr hgiven), forM_eq_error_iff]
    simp only [Declaration.checkItems_eq_ok_iff, Declaration.checkItems_eq_error_iff]
  · obtain ⟨hdossier, hdeclaration⟩ := ofJson_of_shape hshape
    exact ⟨fun hnames => load_of_ofJson_error (hdossier hnames),
      fun hnames => load_of_ofJson_error (hdeclaration hnames)⟩

end Dossier

/-- A declaration of cereals that gives its MRN and the numbers of its items. -/
def cereals (mrn : String) (numbers : List UInt32) : Json := .obj [
  ("mrn", .str mrn),
  ("commodities", .arr (numbers.map fun n => .obj [("item_number", toJson n)]))]

def cerealsDeclared (mrn : String) (numbers : List UInt32) : Declaration where
  mrn := mrn
  version := none
  finalisation := none
  commodities := numbers.map fun n => ⟨n, none, none, none, [], []⟩
  decision := none

def cerealsGiven : Json := .obj [("declarations", .arr [
  cereals "25GB0000000000024" [2, 1], cereals " " [1, 1],
  cereals "25GB0000000000025" [3, 1, 3, 1]])]

def cerealsDossier : Dossier where
  declarations := [cerealsDeclared "25GB0000000000024" [2, 1], cerealsDeclared " " [1, 1],
    cerealsDeclared "25GB0000000000025" [3, 1, 3, 1]]
  notifications := []

/-- The blank MRN is reported, not the number that its declaration has twice, and not the
declaration after it. The declaration before it passes. -/
theorem cereals_judged :
    cerealsDossier.IsGivenBy cerealsGiven ∧
    Dossier.load cerealsGiven = .error .missingMrn ∧
    Dossier.load (cereals "25GB0000000000024" [2, 1]) =
      .ok ⟨[cerealsDeclared "25GB0000000000024" [2, 1]], []⟩ ∧
    (∀ dossier : Dossier, ¬ dossier.IsGivenBy (.obj [("declarations", .int 3)])) ∧
    Dossier.load (.obj [("declarations", .int 3)]) = .error (.shape .dossier) := by
  have hvalid : ∀ d ∈ [cerealsDeclared "25GB0000000000024" [2, 1]], d.IsValid :=
    List.forall_mem_singleton.mpr ⟨⟨'2', by decide, rfl⟩, by decide⟩
  have hgiven : cerealsDossier.IsGivenBy cerealsGiven := Dossier.ofJson_eq_ok_iff.mp rfl
  have hsingle : (⟨[cerealsDeclared "25GB0000000000024" [2, 1]], []⟩ : Dossier).IsGivenBy
      (cereals "25GB0000000000024" [2, 1]) := Dossier.ofJson_eq_ok_iff.mp rfl
  have hshape : ∀ dossier : Dossier, ¬ dossier.IsGivenBy (.obj [("declarations", .int 3)]) :=
    fun dossier h => nomatch Dossier.ofJson_eq_ok_iff.mpr h
  have hnames : (Json.obj [("declarations", .int 3)]).NamesLists :=
    ⟨_, rfl, _, List.mem_cons_self, .inl rfl⟩
  refine ⟨hgiven, ?_, ?_, hshape, ?_⟩
  · exact ((Dossier.load_judges cerealsGiven).2.1 cerealsDossier hgiven .missingMrn).mpr
      ⟨_, cerealsDeclared " " [1, 1], _, rfl, hvalid, .missingMrn (Text.allBlank_iff.mp rfl)⟩
  · exact ((Dossier.load_judges _).1 _).mpr ⟨hsingle, hvalid⟩
  · exact ((Dossier.load_judges _).2.2 hshape).1 hnames

example : Dossier.load (cereals "25GB0000000000025" [3, 1, 3, 1]) =
    .error (.duplicateItem "25GB0000000000025" 3) := rfl

end BorderControl
