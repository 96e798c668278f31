import BorderControl.Dossier
import BorderControl.Proofs.JsonText

/-!
# Data written and read back

Data written as JSON and read back comes back the same, but for the sign of a zero mass or
weight: no reader takes one (`Decimal.reread`). `ReadsBack` says so of a type, with the
function that tells what comes back, and `Dossier.reread` is that function for dossiers.

The value written can be read (`Json.Readable`). So the text of a dossier, in any layout,
gives the dossier back (`Dossier.load_toJson`, `Json.parseChars?_write`).
-/

namespace BorderControl

/-! ## Types that are read back -/

/-- Every member of the vocabulary is found by its word. -/
class LawfulVocabulary (α : Type) [Vocabulary α] : Prop where
  ofWord?_word : ∀ a : α, Vocabulary.ofWord? (Vocabulary.word a) = some a

/-- No value is written as null. -/
class NeverNull (α : Type) [JsonForm α] : Prop where
  toJson_ne_null : ∀ a : α, toJson a ≠ .null

/-- What is written opens at most `depth` brackets within each other, and `f` tells what is
read back. -/
class ReadsBack (α : Type) [JsonForm α] (depth : outParam Nat) (f : outParam (α → α)) :
    Prop where
  readable : ∀ a : α, (toJson a).Readable depth
  ofJson?_toJson : ∀ a : α, ofJson? (toJson a) = some (f a)

export LawfulVocabulary (ofWord?_word)
export NeverNull (toJson_ne_null)
export ReadsBack (readable ofJson?_toJson)

section

variable {α : Type} [JsonForm α] {k : Nat} {f : α → α}

theorem readable_of_le [ReadsBack α k f] {depth : Nat} (h : k ≤ depth) (a : α) :
    (toJson a).Readable depth :=
  (readable a).mono h

/-! ## Simple types -/

instance : NeverNull String := ⟨fun _ => nofun⟩

instance : NeverNull Bool := ⟨fun _ => nofun⟩

instance : NeverNull UInt32 := ⟨fun _ => nofun⟩

instance : NeverNull Decimal := ⟨fun _ => nofun⟩

instance : NeverNull Timestamp := ⟨fun _ => nofun⟩

instance {α : Type} [Vocabulary α] : NeverNull α := ⟨fun _ => nofun⟩

instance : NeverNull (List α) := ⟨fun _ => nofun⟩

instance : ReadsBack String 0 id := ⟨fun _ => .str 0 _, fun _ => rfl⟩

instance : ReadsBack Bool 0 id := ⟨fun _ => .bool 0 _, fun _ => rfl⟩

instance : ReadsBack UInt32 0 id where
  readable n := by
    have := n.toNat_lt
    exact .int 0 _ (by omega) (by simp only [UInt64.size]; omega)
  ofJson?_toJson n := by
    have := n.toNat_lt
    simp only [JsonForm.ofJson?, toJson]
    rw [if_pos (by simp only [UInt32.size]; omega)]
    simp

instance : ReadsBack Decimal 0 Decimal.reread := ⟨fun _ => .str 0 _, Decimal.ofText?_text⟩

instance : ReadsBack Timestamp 0 id := ⟨fun _ => .str 0 _, Timestamp.ofText?_text⟩

instance {α : Type} [Vocabulary α] [LawfulVocabulary α] : ReadsBack α 0 id :=
  ⟨fun _ => .str 0 _, ofWord?_word⟩

theorem toJson_some (a : α) : toJson (some a) = toJson a := rfl

theorem ofJson?_option {j : Json} (h : j ≠ .null) :
    (ofJson? j : Option (Option α)) = (ofJson? j).map some := by
  cases j <;> first | rfl | exact absurd rfl h

instance [NeverNull α] [ReadsBack α k f] : ReadsBack (Option α) k (Option.map f) where
  readable
    | none => .null k
    | some a => readable a
  ofJson?_toJson
    | none => rfl
    | some a => by
      rw [toJson_some, ofJson?_option (toJson_ne_null a), ofJson?_toJson, Option.map_some,
        Option.map_some]

theorem mapM_ofJson? [ReadsBack α k f] :
    ∀ as : List α, (as.map toJson).mapM ofJson? = some (as.map f)
  | [] => rfl
  | a :: as => by
    rw [List.map_cons, List.mapM_cons, ofJson?_toJson, mapM_ofJson? as]
    rfl

instance [ReadsBack α k f] : ReadsBack (List α) (k + 1) (List.map f) where
  readable as := .arr k _ fun j hj => by
    obtain ⟨a, -, rfl⟩ := List.mem_map.mp hj
    exact readable a
  ofJson?_toJson := mapM_ofJson?

/-! ## Fields -/

variable {β : Type} {members : List (String × Json)} {r : Option β}

theorem record?_bind {j : Json} (hj : j = .obj members) {fields : List String}
    {g : List (String × Json) → Option β} (hg : g members = r) :
    (j.record? fields).bind g = r := by
  rw [hj, Json.record?, Option.bind_some, hg]

theorem field_bind [ReadsBack α k f] {name : String} {a : α}
    (h : Json.lookup name members = some (toJson a)) {g : α → Option β} (hg : g (f a) = r) :
    (Json.field name members).bind g = r := by
  rw [Json.field, h, Option.bind_some, ofJson?_toJson, Option.bind_some, hg]

theorem fieldOr_bind [ReadsBack α k f] {name : String} {a default : α}
    (h : Json.lookup name members = some (toJson a)) {g : α → Option β} (hg : g (f a) = r) :
    (Json.fieldOr default name members).bind g = r := by
  simp only [Json.fieldOr, h]
  rw [ofJson?_toJson, Option.bind_some, hg]

end

/-! ## Vocabularies -/

instance : LawfulVocabulary DecisionCode := ⟨fun c => by cases c <;> rfl⟩

instance : LawfulVocabulary DetailCode := ⟨fun c => by cases c <;> rfl⟩

instance : LawfulVocabulary Certificate := ⟨fun c => by cases c <;> rfl⟩

instance : LawfulVocabulary FinalState := ⟨fun s => by cases s <;> rfl⟩

instance : LawfulVocabulary Notification.Status := ⟨fun s => by cases s <;> rfl⟩

instance : LawfulVocabulary Notification.Verdict := ⟨fun v => by cases v <;> rfl⟩

instance : LawfulVocabulary Notification.RefusalAction := ⟨fun a => by cases a <;> rfl⟩

instance : LawfulVocabulary Notification.InspectionNeed := ⟨fun n => by cases n <;> rfl⟩

instance : LawfulVocabulary Notification.FishingFinding := ⟨fun x => by cases x <;> rfl⟩

/-! ## Decisions -/

instance : ReadsBack Finding 2 id where
  readable f := .obj _ _ (by simp [readable_of_le])
  ofJson?_toJson f := by
    simp only [JsonForm.ofJson?, Option.bind_eq_bind]
    refine record?_bind rfl ?_
    repeat first | refine field_bind rfl ?_ | refine fieldOr_bind rfl ?_
    simp

instance : ReadsBack CheckDecision 2 id where
  readable c := .obj _ _ (by simp [readable_of_le])
  ofJson?_toJson c := by
    simp only [JsonForm.ofJson?, Option.bind_eq_bind]
    refine record?_bind rfl ?_
    repeat first | refine field_bind rfl ?_ | refine fieldOr_bind rfl ?_
    simp

instance : ReadsBack ItemDecision 4 id where
  readable i := .obj _ _ (by simp [readable_of_le])
  ofJson?_toJson i := by
    simp only [JsonForm.ofJson?, Option.bind_eq_bind]
    refine record?_bind rfl ?_
    repeat first | refine field_bind rfl ?_ | refine fieldOr_bind rfl ?_
    simp

instance : ReadsBack Result 1 id where
  readable x := .obj _ _ (by simp [readable_of_le])
  ofJson?_toJson x := by
    simp only [JsonForm.ofJson?, Option.bind_eq_bind]
    refine record?_bind rfl ?_
    repeat first | refine field_bind rfl ?_ | refine fieldOr_bind rfl ?_
    simp

instance : ReadsBack Decision 6 id where
  readable d := .obj _ _ (by simp [readable_of_le])
  ofJson?_toJson d := by
    simp only [JsonForm.ofJson?, Option.bind_eq_bind]
    refine record?_bind rfl ?_
    repeat first | refine field_bind rfl ?_ | refine fieldOr_bind rfl ?_
    simp

instance : NeverNull Decision := ⟨fun _ => nofun⟩

/-! ## Notifications -/

namespace Notification

def Line.reread (l : Line) : Line := { l with netWeight := l.netWeight.map Decimal.reread }

def reread (n : Notification) : Notification := { n with lines := n.lines.map Line.reread }

instance : ReadsBack FishingControl 1 id where
  readable c := .obj _ _ (by simp [readable_of_le])
  ofJson?_toJson c := by
    simp only [JsonForm.ofJson?, Option.bind_eq_bind]
    refine record?_bind rfl ?_
    repeat first | refine field_bind rfl ?_ | refine fieldOr_bind rfl ?_
    simp

instance : NeverNull FishingControl := ⟨fun _ => nofun⟩

instance : ReadsBack PartTwo 2 id where
  readable p := .obj _ _ (by simp [readable_of_le])
  ofJson?_toJson p := by
    simp only [JsonForm.ofJson?, Option.bind_eq_bind]
    refine record?_bind rfl ?_
    repeat first | refine field_bind rfl ?_ | refine fieldOr_bind rfl ?_
    simp

instance : NeverNull PartTwo := ⟨fun _ => nofun⟩

instance : ReadsBack Line 1 Line.reread where
  readable l := .obj _ _ (by simp [readable_of_le])
  ofJson?_toJson l := by
    simp only [JsonForm.ofJson?, Option.bind_eq_bind]
    refine record?_bind rfl ?_
    repeat first | refine field_bind rfl ?_ | refine fieldOr_bind rfl ?_
    simp [Line.reread]

end Notification

instance : ReadsBack Notification 3 Notification.reread where
  readable n := .obj _ _ (by simp [readable_of_le])
  ofJson?_toJson n := by
    simp only [JsonForm.ofJson?, Option.bind_eq_bind]
    refine record?_bind rfl ?_
    repeat first | refine field_bind rfl ?_ | refine fieldOr_bind rfl ?_
    simp [Notification.reread]

/-! ## Declarations -/

def Commodity.reread (c : Commodity) : Commodity :=
  { c with netMass := c.netMass.map Decimal.reread }

def Declaration.reread (d : Declaration) : Declaration :=
  { d with commodities := d.commodities.map Commodity.reread }

/-- What the text of a dossier is read as. -/
def Dossier.reread (d : Dossier) : Dossier :=
  ⟨d.declarations.map Declaration.reread, d.notifications.map Notification.reread⟩

instance : ReadsBack Finalisation 1 id where
  readable f := .obj _ _ (by simp [readable_of_le])
  ofJson?_toJson f := by
    simp only [JsonForm.ofJson?, Option.bind_eq_bind]
    refine record?_bind rfl ?_
    repeat first | refine field_bind rfl ?_ | refine fieldOr_bind rfl ?_
    simp

instance : NeverNull Finalisation := ⟨fun _ => nofun⟩

instance : ReadsBack Document 1 id where
  readable d := .obj _ _ (by simp [readable_of_le])
  ofJson?_toJson d := by
    simp only [JsonForm.ofJson?, Option.bind_eq_bind]
    refine record?_bind rfl ?_
    repeat first | refine field_bind rfl ?_ | refine fieldOr_bind rfl ?_
    simp

instance : ReadsBack Check 1 id where
  readable c := .obj _ _ (by simp [readable_of_le])
  ofJson?_toJson c := by
    simp only [JsonForm.ofJson?, Option.bind_eq_bind]
    refine record?_bind rfl ?_
    repeat first | refine field_bind rfl ?_ | refine fieldOr_bind rfl ?_
    simp

instance : ReadsBack Commodity 3 Commodity.reread where
  readable c := .obj _ _ (by simp [readable_of_le])
  ofJson?_toJson c := by
    simp only [JsonForm.ofJson?, Option.bind_eq_bind]
    refine record?_bind rfl ?_
    repeat first | refine field_bind rfl ?_ | refine fieldOr_bind rfl ?_
    simp [Commodity.reread]

instance : ReadsBack Declaration 7 Declaration.reread where
  readable d := .obj _ _ (by simp [readable_of_le])
  ofJson?_toJson d := by
    simp only [JsonForm.ofJson?, Option.bind_eq_bind]
    refine record?_bind rfl ?_
    repeat first | refine field_bind rfl ?_ | refine fieldOr_bind rfl ?_
    simp [Declaration.reread]

instance : ReadsBack Dossier 9 Dossier.reread where
  readable d := .obj _ _ (by simp [readable_of_le])
  ofJson?_toJson d := by
    simp only [JsonForm.ofJson?, Option.bind_eq_bind]
    refine record?_bind rfl ?_
    repeat first | refine field_bind rfl ?_ | refine fieldOr_bind rfl ?_
    simp [Dossier.reread]

/-! ## Loading -/

theorem Declaration.checkItems_reread (d : Declaration) : d.reread.checkItems = d.checkItems := by
  have hnumbers : d.reread.commodities.map (·.itemNumber) = d.commodities.map (·.itemNumber) := by
    rw [Declaration.reread, List.map_map]
    rfl
  rw [checkItems, checkItems, hnumbers]
  rfl

theorem forM_eq_ok_iff {α ε : Type} {f : α → Except ε Unit} :
    ∀ {l : List α}, l.forM f = .ok () ↔ ∀ a ∈ l, f a = .ok ()
  | [] => iff_of_true rfl (List.forall_mem_nil _)
  | a :: l => by
    rw [List.forM.eq_def, List.forall_mem_cons, ← forM_eq_ok_iff]
    dsimp only
    cases f a with
    | error e => exact iff_of_false nofun (fun h => nomatch h.1)
    | ok u => exact ⟨fun h => ⟨rfl, h⟩, fun h => h.2⟩

namespace Dossier

variable {d : Dossier}

theorem ofJson_toJson (d : Dossier) : ofJson (toJson d) = .ok d.reread := by
  have hmember : ((toJson d).member? "declarations").isSome = true := rfl
  rw [ofJson, hmember, Bool.true_or, if_pos rfl, ofJson?_toJson]

/-- A dossier is loaded if and only if its shape is right and every declaration passes. -/
theorem load_eq_ok_iff {j : Json} :
    load j = .ok d ↔ ofJson j = .ok d ∧ ∀ x ∈ d.declarations, x.checkItems = .ok () := by
  rw [load, ← forM_eq_ok_iff]
  cases ofJson j with
  | error e => exact iff_of_false nofun (fun h => nomatch h.1)
  | ok d' =>
    simp only [bind, Except.bind, pure, Except.pure]
    constructor
    · intro h
      split at h
      · cases h
      · next hchecks =>
        cases h
        exact ⟨rfl, hchecks⟩
    · rintro ⟨h, hchecks⟩
      cases h
      rw [hchecks]

/-- What a loaded dossier is written as is loaded again. -/
theorem load_toJson (h : ∀ x ∈ d.declarations, x.checkItems = .ok ()) :
    load (toJson d) = .ok d.reread := by
  refine load_eq_ok_iff.mpr ⟨ofJson_toJson d, fun x hx => ?_⟩
  obtain ⟨y, hy, rfl⟩ := List.mem_map.mp hx
  rw [Declaration.checkItems_reread, h y hy]

end Dossier

end BorderControl
