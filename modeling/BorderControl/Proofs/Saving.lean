import BorderControl.Proofs.RereadFindings
import Mathlib.Data.List.Forall2

/-!
# Data saved and loaded again

A dossier that was loaded, from whatever value, is saved as a text that is loaded again, and
so is a decision. A decision comes back as it was. In a dossier the masses and weights come
back equal in value and with their scale (`Decimal.Same`), and all else as it was
(`Dossier.Same`): only a zero can lose anything, and that is its sign (`Decimal.reread_eq_iff`).
What was loaded again has no sign left to lose, so from then on the dossier stays as it is
(`Dossier.reread_reread`).

`saved_and_loaded` puts this together.
-/

namespace BorderControl

/-! ## Equal data -/

/-- The numbers are equal, and written with as many places. -/
structure Decimal.Same (a b : Decimal) : Prop where
  coefficient : a.coefficient = b.coefficient
  scale : a.scale = b.scale

structure Commodity.Same (a b : Commodity) : Prop where
  itemNumber : a.itemNumber = b.itemNumber
  commodityCode : a.commodityCode = b.commodityCode
  description : a.description = b.description
  netMass : Option.Rel Decimal.Same a.netMass b.netMass
  documents : a.documents = b.documents
  checks : a.checks = b.checks

structure Declaration.Same (a b : Declaration) : Prop where
  mrn : a.mrn = b.mrn
  version : a.version = b.version
  finalisation : a.finalisation = b.finalisation
  commodities : List.Forall₂ Commodity.Same a.commodities b.commodities
  decision : a.decision = b.decision

structure Notification.Line.Same (a b : Notification.Line) : Prop where
  commodityCode : a.commodityCode = b.commodityCode
  description : a.description = b.description
  netWeight : Option.Rel Decimal.Same a.netWeight b.netWeight

structure Notification.Same (a b : Notification) : Prop where
  reference : a.reference = b.reference
  certificate : a.certificate = b.certificate
  version : a.version = b.version
  status : a.status = b.status
  partTwo : a.partTwo = b.partTwo
  lines : List.Forall₂ Notification.Line.Same a.lines b.lines
  updated : a.updated = b.updated

/-- The dossiers differ in the signs of zeros at most. -/
structure Dossier.Same (a b : Dossier) : Prop where
  declarations : List.Forall₂ Declaration.Same a.declarations b.declarations
  notifications : List.Forall₂ Notification.Same a.notifications b.notifications

section Mapped

variable {α : Type} {f : α → α} {R : α → α → Prop}

theorem optionRel_map (h : ∀ a, R (f a) a) (x : Option α) : Option.Rel R (x.map f) x := by
  cases x with
  | none => exact .none
  | some a => exact .some (h a)

theorem forall₂_map (h : ∀ a, R (f a) a) (as : List α) : List.Forall₂ R (as.map f) as :=
  List.forall₂_map_left_iff.mpr (List.forall₂_same.mpr fun a _ => h a)

theorem map_map_idem (h : ∀ a, f (f a) = f a) (as : List α) : (as.map f).map f = as.map f := by
  rw [List.map_map]
  exact List.map_congr_left fun a _ => h a

theorem optionMap_idem (h : ∀ a, f (f a) = f a) (x : Option α) : (x.map f).map f = x.map f := by
  cases x with
  | none => rfl
  | some a => exact congrArg some (h a)

theorem map_eq_self {as : List α} (h : ∀ a ∈ as, f a = a) : as.map f = as :=
  (List.map_congr_left h).trans (List.map_id as)

end Mapped

/-! ## What comes back is the same -/

theorem Decimal.same_reread (d : Decimal) : d.reread.Same d := ⟨d.coefficient_reread, rfl⟩

theorem Commodity.same_reread (c : Commodity) : c.reread.Same c where
  itemNumber := rfl
  commodityCode := rfl
  description := rfl
  netMass := optionRel_map Decimal.same_reread c.netMass
  documents := rfl
  checks := rfl

theorem Declaration.same_reread (d : Declaration) : d.reread.Same d where
  mrn := rfl
  version := rfl
  finalisation := rfl
  commodities := forall₂_map Commodity.same_reread d.commodities
  decision := rfl

theorem Notification.Line.same_reread (l : Notification.Line) : l.reread.Same l where
  commodityCode := rfl
  description := rfl
  netWeight := optionRel_map Decimal.same_reread l.netWeight

theorem Notification.same_reread (n : Notification) : n.reread.Same n where
  reference := rfl
  certificate := rfl
  version := rfl
  status := rfl
  partTwo := rfl
  lines := forall₂_map Notification.Line.same_reread n.lines
  updated := rfl

theorem Dossier.same_reread (d : Dossier) : d.reread.Same d where
  declarations := forall₂_map Declaration.same_reread d.declarations
  notifications := forall₂_map Notification.same_reread d.notifications

/-! ## What comes back comes back as it is -/

theorem Decimal.reread_reread (d : Decimal) : d.reread.reread = d.reread := by
  simp only [reread, Bool.and_assoc, Bool.and_self]

theorem Commodity.reread_reread (c : Commodity) : c.reread.reread = c.reread :=
  congrArg (fun mass => { c with netMass := mass }) (optionMap_idem Decimal.reread_reread c.netMass)

theorem Declaration.reread_reread (d : Declaration) : d.reread.reread = d.reread :=
  congrArg (fun commodities => { d with commodities := commodities })
    (map_map_idem Commodity.reread_reread d.commodities)

theorem Notification.Line.reread_reread (l : Notification.Line) :
    l.reread.reread = l.reread :=
  congrArg (fun weight => { l with netWeight := weight })
    (optionMap_idem Decimal.reread_reread l.netWeight)

theorem Notification.reread_reread (n : Notification) : n.reread.reread = n.reread :=
  congrArg (fun lines => { n with lines := lines })
    (map_map_idem Notification.Line.reread_reread n.lines)

theorem Dossier.reread_reread (d : Dossier) : d.reread.reread = d.reread :=
  congrArg₂ Dossier.mk (map_map_idem Declaration.reread_reread d.declarations)
    (map_map_idem Notification.reread_reread d.notifications)

/-! ## Signs of zeros -/

/-- A decimal comes back as it is unless it is a zero with a sign. -/
theorem Decimal.reread_eq_iff {d : Decimal} :
    d.reread = d ↔ (d.isZero = true → d.negative = false) := by
  have hsign : d.reread = d ↔ (d.negative && d.magnitude != 0) = d.negative := by
    constructor
    · intro h
      exact congrArg Decimal.negative h
    · intro h
      rw [reread, h]
  rw [hsign, isZero]
  cases d.negative <;> simp

/-- The masses and weights of a dossier. -/
def Dossier.decimals (d : Dossier) : List Decimal :=
  d.declarations.flatMap (·.commodities.filterMap (·.netMass)) ++
    d.notifications.flatMap (·.lines.filterMap (·.netWeight))

theorem map_reread_of_forall_mem {x : Option Decimal} (h : ∀ d ∈ x, d.reread = d) :
    x.map Decimal.reread = x := by
  cases x with
  | none => rfl
  | some d => exact congrArg some (h d rfl)

/-- A dossier whose zeros have no sign comes back as it is. -/
theorem Dossier.reread_of_decimals {d : Dossier} (h : ∀ x ∈ d.decimals, x.reread = x) :
    d.reread = d := by
  obtain ⟨hmasses, hweights⟩ := List.forall_mem_append.mp h
  refine congrArg₂ Dossier.mk (map_eq_self fun x hx => ?_) (map_eq_self fun n hn => ?_)
  · refine congrArg (fun commodities => { x with commodities := commodities })
      (map_eq_self fun c hc => congrArg (fun mass => { c with netMass := mass })
        (map_reread_of_forall_mem fun mass hmass => hmasses mass ?_))
    exact List.mem_flatMap.mpr ⟨x, hx, List.mem_filterMap.mpr ⟨c, hc, hmass⟩⟩
  · refine congrArg (fun lines => { n with lines := lines })
      (map_eq_self fun l hl => congrArg (fun weight => { l with netWeight := weight })
        (map_reread_of_forall_mem fun weight hweight => hweights weight ?_))
    exact List.mem_flatMap.mpr ⟨n, hn, List.mem_filterMap.mpr ⟨l, hl, hweight⟩⟩

/-! ## Saving and loading -/

/-- A dossier that passes all checks is saved as a text that is loaded again. -/
theorem Dossier.load_saved {d : Dossier} (h : ∀ x ∈ d.declarations, x.checkItems = .ok ()) :
    Json.parse? ((toJson d).indentedText ++ "\n") = some (toJson d) ∧
      load (toJson d) = .ok d.reread :=
  ⟨Json.parse?_indentedText (readable_of_le (by decide) d), load_toJson h⟩

theorem Decision.load_saved (d : Decision) :
    Json.parse? ((toJson d).indentedText ++ "\n") = some (toJson d) ∧
      load (toJson d) = .ok d := by
  refine ⟨Json.parse?_indentedText (readable_of_le (by decide) d), ?_⟩
  rw [load, ofJson?_toJson]
  rfl

/-- Whatever value a dossier was loaded from, what is saved of it is loaded again, and is the
same dossier, in all its strings, times and lists and in the values and scales of its
decimals. It is the very same unless it has a zero with a sign, and from the second time on
it always is. A decision is the very same at once. -/
theorem saved_and_loaded (j : Json) :
    (∀ d, Dossier.load j = .ok d → ∃ saved d',
      Json.parse? ((toJson d).indentedText ++ "\n") = some saved ∧
      Dossier.load saved = .ok d' ∧ d'.Same d ∧
      ((∀ x ∈ d.decimals, x.isZero = true → x.negative = false) → d' = d) ∧
      ∃ again, Json.parse? ((toJson d').indentedText ++ "\n") = some again ∧
        Dossier.load again = .ok d') ∧
    (∀ d, Decision.load j = .ok d → ∃ saved,
      Json.parse? ((toJson d).indentedText ++ "\n") = some saved ∧
      Decision.load saved = .ok d) := by
  refine ⟨fun d hload => ?_, fun d _ => ⟨_, d.load_saved⟩⟩
  obtain ⟨-, hchecks⟩ := Dossier.load_eq_ok_iff.mp hload
  have hrereadChecks : ∀ x ∈ d.reread.declarations, x.checkItems = .ok () := by
    intro x hx
    obtain ⟨y, hy, rfl⟩ := List.mem_map.mp hx
    rw [y.checkItems_reread, hchecks y hy]
  obtain ⟨hparse, hsaved⟩ := Dossier.load_saved hchecks
  obtain ⟨hparseAgain, hagain⟩ := Dossier.load_saved hrereadChecks
  rw [d.reread_reread] at hagain
  exact ⟨_, d.reread, hparse, hsaved, d.same_reread,
    fun hsigns => Dossier.reread_of_decimals fun x hx => Decimal.reread_eq_iff.mpr (hsigns x hx),
    _, hparseAgain, hagain⟩

/-! ## Ponies by position -/

/-- A decision without results, given by position. It was made at an hour of its own. -/
def ponyDecisionGiven : Json :=
  .arr [.null, .str "2025-06-01T12:00:00.5+01:00", .arr [], .arr []]

def ponyDecision : Decision where
  sourceVersion := none
  created := Timestamp.ofText? "2025-06-01T12:00:00.5+01:00"
  items := []
  results := some []

/-- A declaration given by position, of a mass that is rounded to a zero with a sign. -/
def poniesGiven : Json := .arr [.str "25GB0000000000018", .int 1, .null,
  .arr [.arr [.int 1, .null, .str "Ponies", .str "-0.4e-28"]], ponyDecisionGiven]

def ponies : Declaration where
  mrn := "25GB0000000000018"
  version := some 1
  finalisation := none
  commodities := [⟨1, none, some "Ponies",
    some { Decimal.zero with negative := true, scale := 28, scale_le := by decide }, [], []⟩]
  decision := some ponyDecision

/-- The ponies and their decision come back. -/
theorem ponies_saved_and_loaded :
    Dossier.load poniesGiven = .ok ⟨[ponies], []⟩ ∧
      Decision.load ponyDecisionGiven = .ok ponyDecision ∧
      ponyDecision.created.map (fun t => (t.nanosecond, t.offset)) = some (500000000, 60) ∧
      (∃ saved d', Json.parse? ((toJson (Dossier.mk [ponies] [])).indentedText ++ "\n") =
        some saved ∧ Dossier.load saved = .ok d' ∧ d'.Same ⟨[ponies], []⟩) ∧
      ∃ saved, Json.parse? ((toJson ponyDecision).indentedText ++ "\n") = some saved ∧
        Decision.load saved = .ok ponyDecision := by
  have hload : Dossier.load poniesGiven = .ok ⟨[ponies], []⟩ := by decide +kernel
  have hdecision : Decision.load ponyDecisionGiven = .ok ponyDecision := by decide +kernel
  obtain ⟨saved, d', hparse, hsaved, hsame, -⟩ := (saved_and_loaded poniesGiven).1 _ hload
  exact ⟨hload, hdecision, by decide +kernel, ⟨saved, d', hparse, hsaved, hsame⟩,
    (saved_and_loaded ponyDecisionGiven).2 _ hdecision⟩

end BorderControl
