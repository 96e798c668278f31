import BorderControl.Proofs.Coverage

/-!
# When a derivation fails

A dossier is decided in nested loops, over its declarations, their commodities and the checks
of these, and the first error ends all of them. So the error of a derivation is that of the
first check that has one, in the order in which the checks stand (`Dossier.checks`,
`Dossier.failure?_derive`).

A check has an error exactly where the rule sets have no chain for its family
(`Check.failure?_findings`). The reasons have an error of their own, for an unresolved finding
of an orphan check (`reasonsFor_eq_error_iff`), but a derivation never asks for these.
`Dossier.derive_fails` puts this together.
-/

namespace BorderControl

/-! ## The first error -/

section FirstError

variable {α β ε : Type}

/-- The error, if there is one. -/
def failure? : Except ε β → Option ε
  | .error e => some e
  | .ok _ => none

theorem failure?_eq_some_iff {x : Except ε β} {e : ε} : failure? x = some e ↔ x = .error e := by
  cases x <;> simp [failure?]

theorem failure?_bind_pure {γ : Type} (x : Except ε β) (f : β → γ) :
    failure? (do return f (← x)) = failure? x := by
  cases x <;> rfl

/-- What is collected fails with the first error. -/
theorem failure?_collect (f : α → Except ε (List β)) : ∀ l : List α,
    failure? (collect f l) = l.findSome? fun a => failure? (f a)
  | [] => rfl
  | a :: l => by
    rw [collect, List.findSome?_cons, ← failure?_collect f l]
    cases f a with
    | error e => rfl
    | ok bs => cases collect f l <;> rfl

theorem findSome?_flatMap (f : α → List β) (g : β → Option ε) : ∀ l : List α,
    (l.flatMap f).findSome? g = l.findSome? fun a => (f a).findSome? g
  | [] => rfl
  | a :: l => by
    rw [List.flatMap_cons, List.findSome?_append, findSome?_flatMap f g l, List.findSome?_cons]
    cases (f a).findSome? g <;> rfl

end FirstError

/-! ## Checks without a chain -/

namespace Check

variable {sets : RuleSets} {check : Check}

/-- The check is of the family `c`, and the rule sets have no chain for it. -/
def Lacks (check : Check) (sets : RuleSets) (c : Certificate) : Prop :=
  certificateForCheck? check.code = some c ∧ sets.chain? c = none

/-- The error of choosing the chain for the check. -/
def failure? (check : Check) (sets : RuleSets) : Option DerivationError :=
  BorderControl.failure? (sets.select (certificateForCheck? check.code))

/-- Once there is a chain, nothing fails. -/
theorem failure?_findings (check : Check) (sets : RuleSets) (d : Declaration)
    (notifications : List Notification) (commodity : Commodity) :
    BorderControl.failure? (check.findings sets d notifications commodity) =
      check.failure? sets := by
  rw [findings_eq, failure?]
  cases sets.select (certificateForCheck? check.code) <;> rfl

theorem failure?_eq_some_iff {e : DerivationError} :
    check.failure? sets = some e ↔ ∃ c, check.Lacks sets c ∧ e = .missingRuleSet c := by
  unfold Lacks failure?
  cases hfamily : certificateForCheck? check.code with
  | none => simp [RuleSets.select, BorderControl.failure?]
  | some c =>
    cases hchain : sets.chain? c <;>
      simp [RuleSets.select, BorderControl.failure?, hchain, eq_comm]

theorem failure?_eq_none_iff : check.failure? sets = none ↔ ∀ c, ¬ check.Lacks sets c := by
  rw [Option.eq_none_iff_forall_ne_some]
  constructor
  · intro h c hlacks
    exact h _ (failure?_eq_some_iff.mpr ⟨c, hlacks, rfl⟩)
  · intro h e he
    obtain ⟨c, hlacks, -⟩ := failure?_eq_some_iff.mp he
    exact h c hlacks

end Check

/-! ## Reasons that are out of range -/

/-- For an unresolved finding of an orphan check there is no reason, but an error. -/
theorem reasonsFor_eq_error_iff {commodity : Commodity} {f : Finding} {findings : List Finding}
    {e : DerivationError} : reasonsFor commodity f findings = .error e ↔
      f.decisionCode = .x00 ∧ certificateForCheck? f.checkCode = none ∧
        e = .checkCodeOutOfRange f.checkCode := by
  cases hfamily : certificateForCheck? f.checkCode with
  | some c =>
    obtain ⟨reasons, hreasons⟩ := exists_reasonsFor commodity findings hfamily
    simp [hreasons]
  | none =>
    unfold reasonsFor
    rw [hfamily]
    by_cases hcode : f.decisionCode = .x00
    · simp [hcode, eq_comm]
    · simp [hcode]

/-- An orphan check is unresolved. -/
def unresolvedOrphan : Finding :=
  ⟨"25GB0000000000017", 1, none, none, "H999", none, .x00, some .e75, []⟩

theorem reasonsFor_unresolvedOrphan (commodity : Commodity) (findings : List Finding) :
    reasonsFor commodity unresolvedOrphan findings = .error (.checkCodeOutOfRange "H999") :=
  reasonsFor_eq_error_iff.mpr ⟨rfl, by decide +kernel, rfl⟩

/-! ## Derivations -/

/-- The checks of a declaration, commodity by commodity. -/
def Declaration.checks (d : Declaration) : List Check := d.commodities.flatMap (·.checks)

namespace Dossier

/-- The checks of a dossier in the order in which they are resolved. -/
def checks (dossier : Dossier) : List Check := dossier.declarations.flatMap (·.checks)

theorem mem_checks {dossier : Dossier} {check : Check} : check ∈ dossier.checks ↔
    ∃ d ∈ dossier.declarations, ∃ commodity ∈ d.commodities, check ∈ commodity.checks := by
  simp only [checks, Declaration.checks, List.mem_flatMap]

end Dossier

theorem Declaration.failure?_derive (d : Declaration) (sets : RuleSets) (now : Timestamp)
    (notifications : List Notification) : failure? (d.derive sets now notifications) =
      d.checks.findSome? (·.failure? sets) := by
  rw [derive, failure?_bind_pure, findings, failure?_collect, checks, findSome?_flatMap]
  refine congrArg (List.findSome? · d.commodities) (funext fun commodity => ?_)
  rw [failure?_collect]
  exact congrArg (List.findSome? · commodity.checks)
    (funext fun check => check.failure?_findings sets d notifications commodity)

namespace Dossier

variable {dossier : Dossier} {sets : RuleSets} {now : Timestamp} {e : DerivationError}

theorem failure?_derive :
    failure? (dossier.derive sets now) = dossier.checks.findSome? (·.failure? sets) := by
  rw [derive, failure?_collect, checks, findSome?_flatMap]
  refine congrArg (List.findSome? · dossier.declarations) (funext fun d => ?_)
  rw [failure?_bind_pure (f := fun decision => [(d.mrn, decision)])]
  exact d.failure?_derive sets now dossier.notifications

/-- The error of a derivation is the missing chain of the first check that lacks one. -/
theorem derive_eq_error_iff : dossier.derive sets now = .error e ↔
    ∃ before check after c, dossier.checks = before ++ check :: after ∧ check.Lacks sets c ∧
      (∀ earlier ∈ before, ∀ c, ¬ earlier.Lacks sets c) ∧ e = .missingRuleSet c := by
  rw [← failure?_eq_some_iff, failure?_derive, List.findSome?_eq_some_iff]
  simp only [Check.failure?_eq_some_iff, Check.failure?_eq_none_iff]
  constructor
  · rintro ⟨before, check, after, hsplit, ⟨c, hlacks, he⟩, hbefore⟩
    exact ⟨before, check, after, c, hsplit, hlacks, hbefore, he⟩
  · rintro ⟨before, check, after, c, hsplit, hlacks, hbefore, he⟩
    exact ⟨before, check, after, hsplit, ⟨c, hlacks, he⟩, hbefore⟩

theorem exists_error_iff : (∃ e, dossier.derive sets now = .error e) ↔
    ∃ check ∈ dossier.checks, ∃ c, check.Lacks sets c := by
  simp only [← failure?_eq_some_iff, ← Option.isSome_iff_exists, failure?_derive,
    List.findSome?_isSome_iff]
  simp only [Option.isSome_iff_exists, Check.failure?_eq_some_iff]
  constructor
  · rintro ⟨check, hcheck, e, c, hlacks, -⟩
    exact ⟨check, hcheck, c, hlacks⟩
  · rintro ⟨check, hcheck, c, hlacks⟩
    exact ⟨check, hcheck, _, c, hlacks, rfl⟩

/-- A derivation fails exactly if some check of some commodity is of a family without a chain,
and its error names the family of the first such check. So it never says that a check code is
out of range, as the reasons do that are asked for an orphan check. Under the standard rules
it does not fail. -/
theorem derive_fails (dossier : Dossier) (sets : RuleSets) (now : Timestamp) :
    ((∃ e, dossier.derive sets now = .error e) ↔ ∃ d ∈ dossier.declarations,
      ∃ commodity ∈ d.commodities, ∃ check ∈ commodity.checks, ∃ c, check.Lacks sets c) ∧
    (∀ e, dossier.derive sets now = .error e ↔
      ∃ before check after c, dossier.checks = before ++ check :: after ∧ check.Lacks sets c ∧
        (∀ earlier ∈ before, ∀ c, ¬ earlier.Lacks sets c) ∧ e = .missingRuleSet c) ∧
    (∀ code, dossier.derive sets now ≠ .error (.checkCodeOutOfRange code)) ∧
    (∃ commodity f findings,
      reasonsFor commodity f findings = .error (.checkCodeOutOfRange f.checkCode)) ∧
    ∀ settings, ∃ decisions, dossier.derive (.standard settings) now = .ok decisions := by
  refine ⟨?_, fun e => derive_eq_error_iff, fun code h => ?_, ?_,
    fun settings => ⟨_, dossier.derive_standard settings now⟩⟩
  · rw [exists_error_iff]
    constructor
    · rintro ⟨check, hcheck, hlacks⟩
      obtain ⟨d, hd, commodity, hcommodity, hcheck⟩ := mem_checks.mp hcheck
      exact ⟨d, hd, commodity, hcommodity, check, hcheck, hlacks⟩
    · rintro ⟨d, hd, commodity, hcommodity, check, hcheck, hlacks⟩
      exact ⟨check, mem_checks.mpr ⟨d, hd, commodity, hcommodity, hcheck⟩, hlacks⟩
  · obtain ⟨_, _, _, c, -, -, -, he⟩ := derive_eq_error_iff.mp h
    cases he
  · exact ⟨⟨1, none, none, none, [], [⟨"H999"⟩]⟩, unresolvedOrphan, [unresolvedOrphan],
      reasonsFor_unresolvedOrphan _ _⟩

end Dossier

end BorderControl
