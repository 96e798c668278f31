import BorderControl.Derivation
import BorderControl.Proofs.Chain

/-!
# The findings of a declaration

`pairings` walks through the documents of a commodity and keeps the ones it has seen.
Told apart from the walk, the documents that count are those that qualify, once each
(`evidence`), and each is paired on its own (`pairingsWith`, `pairings_eq`). A pair with a
notification joins a document of the commodity and a notification of the list that name
one certificate (`mem_pairings_of_notification`).

The reasons of a check never fail, because its findings carry its own check code
(`Check.findings_eq`). With the standard rule sets nothing fails, and the findings are a
plain list (`Declaration.findings_standard`).

A derivation looks neither at the decision that the declaration carries
(`Declaration.derive_withDecision`) nor, apart from writing it down, at the time
(`Declaration.derive_at`).
-/

namespace BorderControl

/-! ## Pairs -/

section Pairs

variable {notifications : List Notification} {checkCode : String} {documents : List Document}

/-- The documents that count for the check, once each. -/
def evidence (checkCode : String) (documents : List Document) : List Document :=
  (documents.filter (·.qualifiesFor checkCode)).eraseDups

/-- The pairs with a document; none if it names no certificate. -/
def pairingsWith (notifications : List Notification) (d : Document) : List Pairing :=
  d.identifier?.elim [] (pairingsOf notifications d)

theorem pairingsWith_of_identifier {d : Document} {i : Identifier} (h : d.identifier? = some i) :
    pairingsWith notifications d = pairingsOf notifications d i := by
  rw [pairingsWith, h, Option.elim_some]

theorem pairingsOf_eq (notifications : List Notification) (d : Document) (i : Identifier) :
    pairingsOf notifications d i =
      if notificationsFor notifications i = [] then [⟨none, some d⟩]
      else (notificationsFor notifications i).map fun n => ⟨some n, some d⟩ := by
  rw [pairingsOf]
  cases notificationsFor notifications i <;> rfl

theorem pairingsOf_ne_nil (notifications : List Notification) (d : Document) (i : Identifier) :
    pairingsOf notifications d i ≠ [] := by
  unfold pairingsOf
  split <;> simp

theorem Document.exists_identifier {d : Document} (h : d.qualifiesFor checkCode = true) :
    ∃ i, d.identifier? = some i := by
  simp only [Document.qualifiesFor, Bool.and_eq_true, Document.isWellFormed] at h
  exact Option.isSome_iff_exists.mp h.2

theorem mem_evidence {d : Document} :
    d ∈ evidence checkCode documents ↔ d ∈ documents ∧ d.qualifiesFor checkCode = true := by
  rw [evidence, List.mem_eraseDups, List.mem_filter]

theorem evidence_cons {d : Document} (hq : d.qualifiesFor checkCode = true)
    (rest : List Document) :
    evidence checkCode (d :: rest) = d :: evidence checkCode (rest.filter (· ≠ d)) := by
  have hcomm : (rest.filter (·.qualifiesFor checkCode)).filter (fun a => !a == d) =
      (rest.filter (· ≠ d)).filter (·.qualifiesFor checkCode) := by
    rw [List.filter_filter, List.filter_filter]
    refine List.filter_congr fun a _ => ?_
    by_cases ha : a = d
    · simp [ha]
    · simp [ha]
  rw [evidence, List.filter_cons_of_pos (by simpa using hq), List.eraseDups_cons, hcomm, evidence]

/-- The walk pairs the documents that count and are not seen yet. -/
theorem pairingsFrom_eq : ∀ (documents seen : List Document),
    pairingsFrom notifications checkCode seen documents =
      (evidence checkCode (documents.filter (· ∉ seen))).flatMap (pairingsWith notifications)
  | [], _ => rfl
  | d :: rest, seen => by
    rw [pairingsFrom]
    by_cases hs : d ∈ seen
    · simpa [hs] using pairingsFrom_eq rest seen
    by_cases hq : d.qualifiesFor checkCode = true
    · obtain ⟨i, hi⟩ := Document.exists_identifier hq
      have hrest : (rest.filter (· ∉ seen)).filter (· ≠ d) = rest.filter (· ∉ d :: seen) := by
        rw [List.filter_filter]
        exact List.filter_congr fun a _ => by simp
      rw [if_pos (by simp [hq, hs]), hi, List.filter_cons_of_pos (by simpa using hs),
        evidence_cons hq, List.flatMap_cons, hrest, ← pairingsFrom_eq rest (d :: seen),
        pairingsWith_of_identifier hi]
    · simpa [hs, hq, evidence] using pairingsFrom_eq rest seen

/-- Every document that counts is paired, or there is one pair of nothing. -/
theorem pairings_eq : pairings notifications checkCode documents =
    if evidence checkCode documents = [] then [⟨none, none⟩]
    else (evidence checkCode documents).flatMap (pairingsWith notifications) := by
  have hwalk : pairingsFrom notifications checkCode [] documents =
      (evidence checkCode documents).flatMap (pairingsWith notifications) := by
    simpa using pairingsFrom_eq documents []
  rw [pairings, hwalk]
  cases he : evidence checkCode documents with
  | nil => rfl
  | cons d ds =>
    obtain ⟨i, hi⟩ := Document.exists_identifier
      (mem_evidence.mp (he ▸ List.mem_cons_self : d ∈ evidence checkCode documents)).2
    obtain ⟨p, ps, hp⟩ := List.exists_cons_of_ne_nil (pairingsOf_ne_nil notifications d i)
    simp [pairingsWith_of_identifier hi, hp]

/-- A pair with a notification joins a document that counts and a notification of the list
that stand for one certificate. -/
theorem mem_pairings_of_notification {p : Pairing} {n : Notification}
    (h : p ∈ pairings notifications checkCode documents) (hn : p.notification = some n) :
    n ∈ notifications ∧ ∃ d ∈ documents, p.document = some d ∧
      d.qualifiesFor checkCode = true ∧ ∃ i, d.identifier? = some i ∧ n.identifier? = some i := by
  rw [pairings_eq] at h
  split at h
  · obtain rfl := List.mem_singleton.mp h
    cases hn
  obtain ⟨d, hd, hp⟩ := List.mem_flatMap.mp h
  obtain ⟨hdoc, hq⟩ := mem_evidence.mp hd
  obtain ⟨i, hi⟩ := Document.exists_identifier hq
  rw [pairingsWith_of_identifier hi, pairingsOf] at hp
  split at hp
  · obtain rfl := List.mem_singleton.mp hp
    cases hn
  · next first others hmatched =>
    obtain ⟨n', hn', rfl⟩ := List.mem_map.mp hp
    obtain rfl := Option.some.inj hn
    rw [← hmatched, notificationsFor, List.mem_filter, beq_iff_eq] at hn'
    exact ⟨hn'.1, d, hdoc, rfl, hq, i, hi, hn'.2⟩

end Pairs

/-! ## The findings of a check -/

/-- The findings with the reasons that they give each other. -/
def explained (commodity : Commodity) (findings : List Finding) : List Finding :=
  findings.map fun f =>
    { f with reasons := (reasonsFor commodity f findings).toOption.getD [] }

theorem mapM_eq_ok {α β ε : Type} {f : α → Except ε β} {g : α → β} :
    ∀ {l : List α}, (∀ a ∈ l, f a = .ok (g a)) → l.mapM f = .ok (l.map g)
  | [], _ => rfl
  | a :: l, h => by
    rw [List.mapM_cons, h a List.mem_cons_self,
      mapM_eq_ok fun b hb => h b (List.mem_cons_of_mem _ hb)]
    rfl

/-- The finding of a check that belongs to a family always has its reasons. -/
theorem exists_reasonsFor (commodity : Commodity) (findings : List Finding) {f : Finding}
    {c : Certificate} (hc : certificateForCheck? f.checkCode = some c) :
    ∃ reasons, reasonsFor commodity f findings = .ok reasons := by
  unfold reasonsFor
  rw [hc]
  split
  · exact ⟨_, rfl⟩
  dsimp only
  split
  · exact ⟨_, rfl⟩
  split
  · exact ⟨_, rfl⟩
  split <;> exact ⟨_, rfl⟩

/-- An orphan check has no reasons. -/
theorem toOption_reasonsFor_orphan {commodity : Commodity} {f : Finding}
    {findings : List Finding} (hc : certificateForCheck? f.checkCode = none) :
    (reasonsFor commodity f findings).toOption.getD [] = [] := by
  unfold reasonsFor
  rw [hc]
  split <;> rfl

/-- Findings of one check without reasons get theirs, an orphan check none. -/
theorem explain_eq (commodity : Commodity) {checkCode : String} {findings : List Finding}
    (h : ∀ f ∈ findings, f.checkCode = checkCode ∧ f.reasons = []) :
    (if (certificateForCheck? checkCode).isNone then .ok findings
      else findings.mapM fun f => do
        return { f with reasons := ← reasonsFor commodity f findings }) =
      Except.ok (explained commodity findings) := by
  cases hc : certificateForCheck? checkCode with
  | none =>
    have hsame : explained commodity findings = findings.map id := by
      refine List.map_congr_left fun f hf => ?_
      obtain ⟨hcheck, hreasons⟩ := h f hf
      rw [toOption_reasonsFor_orphan (hcheck ▸ hc), ← hreasons]
      rfl
    rw [hsame, List.map_id]
    rfl
  | some c =>
    refine mapM_eq_ok fun f hf => ?_
    obtain ⟨reasons, hr⟩ := exists_reasonsFor commodity findings ((h f hf).1 ▸ hc)
    rw [hr]
    rfl

/-- A check fails only where its family has no chain. Otherwise its findings are those of
the chain on every pair, with their reasons. -/
theorem Check.findings_eq (check : Check) (sets : RuleSets) (d : Declaration)
    (notifications : List Notification) (commodity : Commodity) :
    check.findings sets d notifications commodity =
      (sets.select (certificateForCheck? check.code)).map fun chain =>
        explained commodity ((pairings notifications check.code commodity.documents).map
          (findingFor chain d commodity check.code)) := by
  simp only [Check.findings]
  cases sets.select (certificateForCheck? check.code) with
  | error e => rfl
  | ok chain =>
    simp only [bind, Except.bind, Except.map]
    refine explain_eq commodity fun f hf => ?_
    obtain ⟨p, -, rfl⟩ := List.mem_map.mp hf
    exact ⟨rfl, rfl⟩

/-! ## Standard rule sets -/

namespace RuleSets

/-- The standard chain of a family, or of orphan checks. -/
def standardChain (s : RuleSettings) : Option Certificate → Chain
  | none => structural
  | some c => structural ++ own c ++ commodityRules s

theorem select_standard (s : RuleSettings) (c : Option Certificate) :
    (standard s).select c = .ok (standardChain s c) := by
  cases c <;> rfl

end RuleSets

/-- The findings of a check under the standard rules. -/
def Check.standardFindings (check : Check) (s : RuleSettings) (d : Declaration)
    (notifications : List Notification) (commodity : Commodity) : List Finding :=
  explained commodity ((pairings notifications check.code commodity.documents).map
    (findingFor (RuleSets.standardChain s (certificateForCheck? check.code)) d commodity
      check.code))

/-- A finding of the check is the one for a pair, with some reasons. -/
theorem Check.mem_standardFindings {check : Check} {s : RuleSettings} {d : Declaration}
    {notifications : List Notification} {commodity : Commodity} {f : Finding}
    (h : f ∈ check.standardFindings s d notifications commodity) :
    ∃ p ∈ pairings notifications check.code commodity.documents, ∃ bare reasons,
      findingFor (RuleSets.standardChain s (certificateForCheck? check.code)) d commodity
        check.code p = bare ∧ f = { bare with reasons := reasons } := by
  obtain ⟨bare, hbare, rfl⟩ := List.mem_map.mp h
  obtain ⟨p, hp, hfor⟩ := List.mem_map.mp hbare
  exact ⟨p, hp, bare, _, hfor, rfl⟩

theorem Check.findings_standard (check : Check) (s : RuleSettings) (d : Declaration)
    (notifications : List Notification) (commodity : Commodity) :
    check.findings (.standard s) d notifications commodity =
      .ok (check.standardFindings s d notifications commodity) := by
  rw [findings_eq, RuleSets.select_standard]
  rfl

theorem collect_eq_ok {α β ε : Type} {f : α → Except ε (List β)} {g : α → List β} :
    ∀ {l : List α}, (∀ a ∈ l, f a = .ok (g a)) → collect f l = .ok (l.flatMap g)
  | [], _ => rfl
  | a :: l, h => by
    rw [collect, h a List.mem_cons_self,
      collect_eq_ok fun b hb => h b (List.mem_cons_of_mem _ hb)]
    rfl

namespace Declaration

/-- The findings of a declaration under the standard rules. -/
def standardFindings (d : Declaration) (s : RuleSettings) (notifications : List Notification) :
    List Finding :=
  d.commodities.flatMap fun commodity => commodity.checks.flatMap fun check =>
    check.standardFindings s d notifications commodity

/-- Under the standard rules a declaration always has its findings. -/
theorem findings_standard (d : Declaration) (s : RuleSettings)
    (notifications : List Notification) :
    d.findings (.standard s) notifications = .ok (d.standardFindings s notifications) :=
  collect_eq_ok fun commodity _ => collect_eq_ok fun check _ =>
    check.findings_standard s d notifications commodity

/-- A derivation that succeeds builds its decision from the findings. -/
theorem derive_eq_ok_iff {d : Declaration} {sets : RuleSets} {now : Timestamp}
    {notifications : List Notification} {decision : Decision} :
    d.derive sets now notifications = .ok decision ↔
      ∃ findings, d.findings sets notifications = .ok findings ∧
        decision = Decision.build now d notifications findings := by
  unfold derive
  cases d.findings sets notifications with
  | error e =>
    constructor
    · intro h
      cases h
    · rintro ⟨_, h, -⟩
      cases h
  | ok findings =>
    constructor
    · intro h
      exact ⟨findings, rfl, (Except.ok.inj h).symm⟩
    · rintro ⟨_, h, rfl⟩
      rw [Except.ok.inj h]
      rfl

/-- So it always has its decision. -/
theorem derive_standard (d : Declaration) (s : RuleSettings) (now : Timestamp)
    (notifications : List Notification) :
    d.derive (.standard s) now notifications =
      .ok (Decision.build now d notifications (d.standardFindings s notifications)) :=
  derive_eq_ok_iff.mpr ⟨_, d.findings_standard s notifications, rfl⟩

/-! ## What a derivation does not look at -/

/-- The declaration with another decision kept. -/
def withDecision (d : Declaration) (decision : Option Decision) : Declaration :=
  { d with decision := decision }

theorem findingFor_withDecision (chain : Chain) (d : Declaration) (decision : Option Decision)
    (commodity : Commodity) (checkCode : String) (p : Pairing) :
    findingFor chain (d.withDecision decision) commodity checkCode p =
      findingFor chain d commodity checkCode p := by
  have houtcome : chain.resolve ⟨d.withDecision decision, commodity, checkCode,
      certificateForCheck? checkCode, p.notification, p.document⟩ =
      chain.resolve ⟨d, commodity, checkCode, certificateForCheck? checkCode, p.notification,
        p.document⟩ := Chain.resolve_congr fun r _ => by cases r <;> rfl
  rw [findingFor, houtcome]
  rfl

theorem findings_withDecision (d : Declaration) (decision : Option Decision) (sets : RuleSets)
    (notifications : List Notification) :
    (d.withDecision decision).findings sets notifications = d.findings sets notifications := by
  have hcheck : ∀ (check : Check) (commodity : Commodity),
      check.findings sets (d.withDecision decision) notifications commodity =
        check.findings sets d notifications commodity := fun check commodity => by
    rw [Check.findings_eq, Check.findings_eq, funext fun chain => congrArg (explained commodity)
      (List.map_congr_left fun p _ =>
        findingFor_withDecision chain d decision commodity check.code p)]
  simp only [findings, hcheck]
  rfl

/-- The decision that a declaration carries has no say in the one derived anew. -/
theorem derive_withDecision (d : Declaration) (decision : Option Decision) (sets : RuleSets)
    (now : Timestamp) (notifications : List Notification) :
    (d.withDecision decision).derive sets now notifications =
      d.derive sets now notifications := by
  rw [derive, findings_withDecision]
  rfl

end Declaration

/-- The decision, made at another time. -/
def Decision.at (d : Decision) (now : Timestamp) : Decision := { d with created := some now }

/-- The time of a derivation is only written down. -/
theorem Declaration.derive_at {d : Declaration} {sets : RuleSets} {now : Timestamp}
    {notifications : List Notification} {decision : Decision}
    (h : d.derive sets now notifications = .ok decision) (later : Timestamp) :
    d.derive sets later notifications = .ok (decision.at later) := by
  obtain ⟨findings, hf, rfl⟩ := derive_eq_ok_iff.mp h
  exact derive_eq_ok_iff.mpr ⟨findings, hf, rfl⟩

end BorderControl
