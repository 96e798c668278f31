import BorderControl.RuleSets
import Mathlib.Data.List.Basic

/-!
# What a chain answers

`Chain.resolve` meets a rule in one of three steps, and the first three lemmas say what
becomes of each. Two cases on which every rule of a chain takes the same step have the
same outcome (`resolve_congr`).

Most rules are guards (`Rule.isGuard`): they never let goods go. A guard defers or
answers, and its answer is neither a release nor the unknown outcome
(`Rule.step_isGuarded`). So a chain that starts with guards releases only what all of
them deferred on (`resolve_append_of_release`), and a chain of guards alone is unknown
exactly where all of them defer (`resolve_eq_unknown_iff`).
-/

namespace BorderControl

namespace Chain

variable {r : Rule} {rest : Chain} {c : Case} {o : Outcome}

theorem resolve_of_answer (h : r.step c = .answer o) : resolve (r :: rest) c = o := by
  rw [resolve, h]

theorem resolve_of_defer (h : r.step c = .defer) : resolve (r :: rest) c = resolve rest c := by
  rw [resolve, h]

theorem resolve_of_unlessVetoed (h : r.step c = .unlessVetoed o) :
    resolve (r :: rest) c = if resolve rest c = .unknown then o else resolve rest c := by
  rw [resolve, h]

/-- Cases on which every rule of the chain takes the same step have the same outcome. -/
theorem resolve_congr {c c' : Case} :
    ∀ {chain : Chain}, (∀ r ∈ chain, r.step c = r.step c') → chain.resolve c = chain.resolve c'
  | [], _ => rfl
  | r :: rest, h => by
    have ih : resolve rest c = resolve rest c' :=
      resolve_congr fun r hr => h r (List.mem_cons_of_mem _ hr)
    simp only [resolve, h r List.mem_cons_self, ih]

end Chain

/-! ## Releases -/

/-- The code lets the goods go, to the market or to a controlled destination. -/
def DecisionCode.isRelease : DecisionCode → Bool
  | c02 | c03 | c05 | c06 | c07 | c08 | e03 => true
  | _ => false

/-- Releases are the codes that every hold outranks. -/
theorem DecisionCode.isRelease_iff (c : DecisionCode) : c.isRelease = true ↔ c.severity ≤ 1 := by
  cases c <;> decide

/-- The rule never lets goods go. -/
def Rule.isGuard : Rule → Bool
  | orphanCheckCode | unlinkedNotification | wrongCertificate | notificationStatus
  | terminalDeclaration | amendment | inspectionRequired | missingSupportingData
  | commodityCode | weightTolerance _ | pass => true
  | chedADecision | chedPDecision | chedDDecision | chedPPDecision | fishingControl
  | fixed _ => false

/-- The outcome is an opinion, and no release. -/
def Outcome.Stops (o : Outcome) : Prop := o.decisionCode.isRelease = false ∧ o ≠ .unknown

/-- The step defers, or stops the goods. -/
def Step.IsGuarded (s : Step) : Prop := s = .defer ∨ ∃ o, s = .answer o ∧ o.Stops

theorem Step.IsGuarded.defer : Step.defer.IsGuarded := Or.inl rfl

theorem Step.IsGuarded.answer {o : Outcome} (h : o.Stops) : (Step.answer o).IsGuarded :=
  Or.inr ⟨o, rfl, h⟩

theorem Step.IsGuarded.ite {p : Prop} [Decidable p] {s t : Step} (hs : s.IsGuarded)
    (ht : t.IsGuarded) : (if p then s else t).IsGuarded := by
  split
  · exact hs
  · exact ht

theorem withdrawal_stops {status : Notification.Status} {detail : DetailCode}
    (h : Rule.withdrawal? status = some detail) : (Outcome.detailed .x00 detail).Stops := by
  cases status <;> cases h <;> exact ⟨rfl, by decide⟩

theorem missingDataStep_isGuarded (n : Notification) : (Rule.missingDataStep n).IsGuarded :=
  .ite (.answer ⟨rfl, by decide⟩) (.ite (.answer ⟨rfl, by decide⟩) .defer)

theorem weightStep_isGuarded (percent : Decimal) (n : Notification) (mass : Decimal)
    (code : String) : (Rule.weightStep percent n mass code).IsGuarded := by
  unfold Rule.weightStep
  split
  · exact .answer ⟨rfl, by decide⟩
  · exact .ite .defer (.answer ⟨rfl, by decide⟩)

/-- A guard defers, or answers with an opinion that is no release. -/
theorem Rule.step_isGuarded {r : Rule} (h : r.isGuard = true) (c : Case) :
    (r.step c).IsGuarded := by
  have stop : ∀ o : Outcome, o.decisionCode.isRelease = false → o ≠ .unknown →
      (Step.answer o).IsGuarded := fun o h₁ h₂ => .answer ⟨h₁, h₂⟩
  cases r with
  | orphanCheckCode => exact .ite (stop _ rfl (by decide)) .defer
  | unlinkedNotification => exact .ite (stop _ rfl (by decide)) .defer
  | wrongCertificate =>
    simp only [Rule.step]
    split
    · exact .ite (stop _ rfl (by decide)) .defer
    · exact .defer
  | notificationStatus =>
    simp only [Rule.step]
    split
    · next detail hd =>
      obtain ⟨status, -, hw⟩ := Option.bind_eq_some_iff.mp hd
      exact .answer (withdrawal_stops hw)
    · exact .defer
  | terminalDeclaration => exact .ite (stop _ rfl (by decide)) .defer
  | amendment => exact .ite (stop _ rfl (by decide)) .defer
  | inspectionRequired =>
    simp only [Rule.step]
    split
    · exact .ite (stop _ rfl (by decide)) .defer
    · exact .defer
  | missingSupportingData =>
    simp only [Rule.step]
    split
    · exact missingDataStep_isGuarded _
    · exact .defer
  | commodityCode =>
    simp only [Rule.step]
    split
    · exact .ite (stop _ rfl (by decide)) .defer
    · exact .defer
  | weightTolerance percent =>
    simp only [Rule.step]
    split
    · exact weightStep_isGuarded _ _ _ _
    · exact .defer
  | pass => exact .defer
  | chedADecision | chedPDecision | chedDDecision | chedPPDecision | fishingControl
  | fixed _ => cases h

namespace Chain

/-- Behind guards, a release means that all of them deferred. -/
theorem resolve_append_of_release {rest : Chain} {c : Case} :
    ∀ {guards : Chain}, (∀ r ∈ guards, r.isGuard = true) →
      ((guards ++ rest).resolve c).decisionCode.isRelease = true →
      (∀ r ∈ guards, r.step c = .defer) ∧ (guards ++ rest).resolve c = rest.resolve c
  | [], _, _ => ⟨by simp, rfl⟩
  | r :: guards, hg, h => by
    rcases Rule.step_isGuarded (hg r List.mem_cons_self) c with hd | ⟨o, ho, hstop⟩
    · rw [List.cons_append, resolve_of_defer hd] at h ⊢
      obtain ⟨hall, heq⟩ :=
        resolve_append_of_release (fun r hr => hg r (List.mem_cons_of_mem _ hr)) h
      exact ⟨List.forall_mem_cons.mpr ⟨hd, hall⟩, heq⟩
    · rw [List.cons_append, resolve_of_answer ho, hstop.1] at h
      cases h

theorem resolve_of_forall_defer {c : Case} :
    ∀ {chain : Chain}, (∀ r ∈ chain, r.step c = .defer) → chain.resolve c = .unknown
  | [], _ => rfl
  | r :: rest, h => by
    rw [resolve_of_defer (h r List.mem_cons_self)]
    exact resolve_of_forall_defer fun r hr => h r (List.mem_cons_of_mem _ hr)

/-- Guards alone release nothing. -/
theorem not_isRelease_of_guards {guards : Chain} (hg : ∀ r ∈ guards, r.isGuard = true)
    (c : Case) : (guards.resolve c).decisionCode.isRelease = false := by
  by_contra h
  have hrel : ((guards ++ []).resolve c).decisionCode.isRelease = true := by simpa using h
  rw [(resolve_append_of_release hg hrel).2] at hrel
  cases hrel

/-- Guards alone leave a case unknown exactly where all of them defer. -/
theorem resolve_eq_unknown_iff {c : Case} {guards : Chain}
    (hg : ∀ r ∈ guards, r.isGuard = true) :
    guards.resolve c = .unknown ↔ ∀ r ∈ guards, r.step c = .defer := by
  refine ⟨fun h => ?_, resolve_of_forall_defer⟩
  induction guards with
  | nil => simp
  | cons r guards ih =>
    rcases Rule.step_isGuarded (hg r List.mem_cons_self) c with hd | ⟨o, ho, hstop⟩
    · rw [resolve_of_defer hd] at h
      exact List.forall_mem_cons.mpr
        ⟨hd, ih (fun r hr => hg r (List.mem_cons_of_mem _ hr)) h⟩
    · rw [resolve_of_answer ho] at h
      exact absurd h hstop.2

/-- A rule in front of guards that only releases with a veto does so after all of them
deferred. -/
theorem resolve_cons_of_release {r : Rule} {c : Case} {guards : Chain}
    (hr : ∀ o, r.step c = .answer o → o.decisionCode.isRelease = false)
    (hg : ∀ r ∈ guards, r.isGuard = true)
    (h : (resolve (r :: guards) c).decisionCode.isRelease = true) :
    r.step c = .unlessVetoed (resolve (r :: guards) c) ∧ ∀ r ∈ guards, r.step c = .defer := by
  cases hs : r.step c with
  | answer o =>
    rw [resolve_of_answer hs, hr o hs] at h
    cases h
  | defer =>
    rw [resolve_of_defer hs, not_isRelease_of_guards hg] at h
    cases h
  | unlessVetoed o =>
    rw [resolve_of_unlessVetoed hs] at h ⊢
    by_cases hlater : guards.resolve c = .unknown
    · rw [if_pos hlater]
      exact ⟨rfl, (resolve_eq_unknown_iff hg).mp hlater⟩
    · rw [if_neg hlater, not_isRelease_of_guards hg] at h
      cases h

end Chain

end BorderControl
