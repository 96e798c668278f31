import BorderControl.Proofs.Release

/-!
# Standard rules as a table

A chain of rules passes a case on from rule to rule, and a rule that grants a release hears
the rules behind it first. This module says the same without rules. `priorityTable` is one
list of rows for all families; a row is an outcome and the cases that it is for (`Row`), and
the first row that applies to a case decides it (`Row.resolve`). Holds and refusals stand
above releases, so nothing has to be vetoed.

A chain follows rows if, in front of whatever rest, it decides as they do
(`Chain.Follows`). Rules that only answer or defer are compared with the rows one by one.
The decision rule of a family and the commodity rules behind it have to be taken together,
since its refusals stand in front of their rows and its releases after them
(`resolve_decision`). So the standard chain of every family decides as the table does
(`RuleSets.resolve_standard`).
-/

namespace BorderControl

/-! ## Rows -/

/-- An outcome, and the cases that it is for. -/
structure Row where
  applies : Case → Bool
  outcome : Outcome

namespace Row

/-- The outcome of the first row that applies. -/
def first? (rows : List Row) (c : Case) : Option Outcome :=
  (rows.find? (·.applies c)).map (·.outcome)

/-- The first row that applies decides the case; if none does, it is unknown. -/
def resolve (rows : List Row) (c : Case) : Outcome := (first? rows c).getD .unknown

variable {row : Row} {rows more : List Row} {c : Case}

@[simp] theorem first?_nil : first? [] c = none := rfl

theorem first?_cons :
    first? (row :: rows) c = if row.applies c then some row.outcome else first? rows c := by
  rw [first?, List.find?_cons]
  cases row.applies c <;> rfl

theorem first?_cons_of_pos (h : row.applies c = true) :
    first? (row :: rows) c = some row.outcome := by
  rw [first?_cons, if_pos h]

theorem first?_cons_of_neg (h : row.applies c = false) :
    first? (row :: rows) c = first? rows c := by
  simp [first?_cons, h]

theorem first?_append : first? (rows ++ more) c = (first? rows c).or (first? more c) := by
  rw [first?, List.find?_append, Option.map_or]
  rfl

theorem exists_of_first? {o : Outcome} (h : first? rows c = some o) :
    ∃ row ∈ rows, row.outcome = o := by
  obtain ⟨row, hrow, ho⟩ := Option.map_eq_some_iff.mp h
  exact ⟨row, List.mem_of_find?_eq_some hrow, ho⟩

end Row

/-! ## The table -/

namespace Case

/-- The case is about plants. -/
def isPlants (c : Case) : Bool := c.certificate == some .chedPP

def hasStatus (status : Notification.Status) (c : Case) : Bool := c.status? == some status

/-- An inspection is asked for or goes on, and nothing is decided. -/
def isUnderInspection (c : Case) : Bool :=
  c.partTwo?.any fun p =>
    (p.inspection == some .required || p.inspection == some .inconclusive) && p.verdict == none

/-- The case asks for the control of a catch. -/
def asksForFishing (c : Case) : Bool :=
  c.certificate == some .chedP && Text.sameLetters c.checkCode "H224"

def fishing? (c : Case) : Option Notification.FishingControl := c.partTwo?.bind (·.fishing)

/-- The goods are not acceptable, and one of the actions is to follow. -/
def isRefused (actions : List (Option Notification.RefusalAction)) (c : Case) : Bool :=
  !c.isPlants && c.verdict? == some .nonAcceptable && actions.contains c.refusalAction?

/-- The case is of the family, and the verdict is one of those. -/
def isGranted (family : Certificate) (verdicts : List Notification.Verdict) (c : Case) : Bool :=
  c.certificate == some family && c.verdict?.any verdicts.contains

/-- The notification has lines, and none of them covers the declared code. -/
def isUnlisted (c : Case) : Bool :=
  match c.notification, c.commodity.commodityCode with
  | some n, some code => !n.lines.isEmpty && n.lines.all fun line => !line.covers code
  | _, _ => false

/-- The declared mass is too far from a notified weight that is not zero, or the notified
weight is too large to be known. -/
def isOffWeight (percent : Decimal) (c : Case) : Bool :=
  match c.notification, c.commodity.netMass, c.commodity.commodityCode with
  | some n, some mass, some code =>
    match notifiedWeight? code n.lines with
    | some notified => !notified.isZero && !withinTolerance percent mass notified
    | none => true
  | _, _, _ => false

end Case

section Table

open Case

/-- Nothing that could be decided on. -/
def linkRows : List Row := [
  ⟨fun c => c.notification.isNone, .detailed .x00 .e70⟩,
  ⟨fun c => c.notification.any fun n => some n.certificate != c.certificate, .detailed .x00 .e80⟩,
  ⟨hasStatus .cancelled, .detailed .x00 .e71⟩,
  ⟨hasStatus .replaced, .detailed .x00 .e72⟩,
  ⟨hasStatus .deleted, .detailed .x00 .e73⟩,
  ⟨hasStatus .splitConsignment, .detailed .x00 .e74⟩,
  ⟨fun c => c.declaration.isTerminal, .detailed .x00 .e82⟩]

/-- Nothing decided yet. -/
def intakeRows : List Row := [
  ⟨fun c => !c.isPlants && c.hasStatus .amend, .detailed .h01 .e84⟩,
  ⟨fun c => !c.isPlants && c.isUnderInspection, .plain .h02⟩,
  ⟨fun c => c.status?.any (·.isPending), .plain .h01⟩,
  ⟨fun c => c.partTwo?.isNone, .detailed .x00 .e88⟩]

/-- The control of a catch. -/
def fishingRows : List Row := [
  ⟨fun c => c.asksForFishing && c.fishing?.isNone, .detailed .x00 .e87⟩,
  ⟨fun c => c.asksForFishing && c.fishing?.any fun f =>
    !f.checkRequired || f.finding == some .notApplicable, .plain .c08⟩,
  ⟨fun c => c.asksForFishing && c.fishing?.any (·.finding == some .compliant), .plain .c07⟩,
  ⟨fun c => c.asksForFishing && c.fishing?.any (·.finding == some .notCompliant), .plain .n07⟩,
  ⟨fun c => c.asksForFishing && c.fishing?.any (·.finding == none), .plain .h02⟩]

/-- What the border control post refuses, or holds back in part. -/
def refusalRows : List Row := [
  ⟨isRefused [some .destruction, some .euthanasia, some .slaughter], .plain .n02⟩,
  ⟨isRefused [some .transformation], .plain .n03⟩,
  ⟨isRefused [some .reexport], .plain .n04⟩,
  ⟨isRefused [some .redispatching], .plain .n05⟩,
  ⟨isRefused [some .other, none], .plain .n07⟩,
  ⟨fun c => c.isPlants && c.hasStatus .rejected, .plain .n01⟩,
  ⟨fun c => c.isPlants && c.hasStatus .partiallyRejected, .plain .h01⟩]

/-- Goods that are not the notified ones. -/
def goodsRows (s : RuleSettings) : List Row := [
  ⟨isUnlisted, .detailed .h01 .e85⟩,
  ⟨fun c => s.weightValidation && c.isOffWeight s.weightTolerance, .detailed .h01 .e86⟩]

/-- What the border control post releases. -/
def releaseRows : List Row := [
  ⟨isGranted .chedA [.internalMarket], .plain .c03⟩,
  ⟨isGranted .chedA [.temporaryImport], .plain .c05⟩,
  ⟨isGranted .chedA [.horseReEntry, .ifChanneled], .plain .c06⟩,
  ⟨isGranted .chedA [.transhipment, .transit, .specificWarehouse], .plain .e03⟩,
  ⟨isGranted .chedP [.internalMarket], .plain .c03⟩,
  ⟨isGranted .chedP [.ifChanneled], .plain .c06⟩,
  ⟨isGranted .chedP [.transhipment, .transit, .specificWarehouse], .plain .e03⟩,
  ⟨isGranted .chedD [.internalMarket], .plain .c03⟩,
  ⟨fun c => c.isPlants && c.hasStatus .validated, .plain .c03⟩]

/-- The rows of all families, those that count first in front. -/
def priorityTable (s : RuleSettings) : List Row :=
  linkRows ++ intakeRows ++ fishingRows ++ refusalRows ++ goodsRows s ++ releaseRows

end Table

/-! ## Chains that follow rows -/

/-- In front of any rest the chain decides the case as the rows do in front of the rows that
the rest decides it by. -/
def Chain.Follows (chain : Chain) (rows : List Row) (c : Case) : Prop :=
  ∀ (rest : Chain) (more : List Row), rest.resolve c = Row.resolve more c →
    (chain ++ rest).resolve c = Row.resolve (rows ++ more) c

namespace Chain.Follows

variable {r : Rule} {chain chain' : Chain} {row : Row} {rows rows' : List Row} {c : Case}

/-- No rules are needed for rows that do not apply. -/
theorem nil_of_none (h : Row.first? rows c = none) : Chain.Follows [] rows c := by
  intro rest more hrest
  rw [List.nil_append, hrest, Row.resolve, Row.resolve, Row.first?_append, h, Option.none_or]

theorem nil : Chain.Follows [] [] c := nil_of_none rfl

/-- A row that does not apply may be left out. -/
theorem skip (h : row.applies c = false) (h' : Chain.Follows chain rows c) :
    Chain.Follows chain (row :: rows) c := by
  intro rest more hrest
  rw [List.cons_append, Row.resolve, Row.first?_cons_of_neg h]
  exact h' rest more hrest

/-- A rule that defers may be left out. -/
theorem defer (h : r.step c = .defer) (h' : Chain.Follows chain rows c) :
    Chain.Follows (r :: chain) rows c := by
  intro rest more hrest
  rw [List.cons_append, resolve_of_defer h]
  exact h' rest more hrest

/-- A rule answers as a row does that applies; the rest is about cases to which it does
not. -/
theorem answer (h : row.applies c = true → r.step c = .answer row.outcome)
    (h' : row.applies c = false → Chain.Follows (r :: chain) rows c) :
    Chain.Follows (r :: chain) (row :: rows) c := by
  cases hrow : row.applies c with
  | false => exact skip hrow (h' hrow)
  | true =>
    intro rest more _
    rw [List.cons_append, List.cons_append, resolve_of_answer (h hrow), Row.resolve,
      Row.first?_cons_of_pos hrow, Option.getD_some]

/-- A rule with one row. -/
theorem cons (h : r.step c = if row.applies c then .answer row.outcome else .defer)
    (h' : Chain.Follows chain rows c) : Chain.Follows (r :: chain) (row :: rows) c :=
  answer (fun hrow => by rw [h, if_pos hrow]) fun hrow => defer (by simp [h, hrow]) h'

/-- A rule that answers what the rows say, and defers where they say nothing. -/
theorem rule (h : r.step c = (Row.first? rows c).elim .defer .answer) :
    Chain.Follows [r] rows c := by
  intro rest more hrest
  rw [List.singleton_append, Row.resolve, Row.first?_append]
  cases hrows : Row.first? rows c with
  | none => rw [resolve_of_defer (by simpa [hrows] using h), hrest, Option.none_or, Row.resolve]
  | some o => rw [resolve_of_answer (by simpa [hrows] using h), Option.some_or, Option.getD_some]

theorem append (h : Chain.Follows chain rows c) (h' : Chain.Follows chain' rows' c) :
    Chain.Follows (chain ++ chain') (rows ++ rows') c := by
  intro rest more hrest
  rw [List.append_assoc, List.append_assoc]
  exact h _ _ (h' rest more hrest)

/-- Where a row applies, the rest does not matter. -/
theorem resolve_append (h : Chain.Follows chain rows c) {o : Outcome}
    (ho : Row.first? rows c = some o) (rest : Chain) : (chain ++ rest).resolve c = o := by
  -- a single row stands for whatever the rest decides
  rw [h rest [⟨fun _ => true, rest.resolve c⟩] rfl, Row.resolve, Row.first?_append, ho,
    Option.some_or, Option.getD_some]

theorem resolve_eq (h : Chain.Follows chain rows c) : chain.resolve c = Row.resolve rows c := by
  simpa using h [] [] rfl

end Chain.Follows

open RuleSets Rule Chain

/-! ## Rules that answer or defer -/

section Rules

variable {c : Case} {family : Certificate} {s : RuleSettings}

theorem follows_structural (h : c.certificate = some family) :
    Chain.Follows structural linkRows c := by
  refine .defer (by simp [Rule.step, h]) (.cons rfl (.cons ?_ (.answer ?_ fun hcancelled =>
    .answer ?_ fun hreplaced => .answer ?_ fun hdeleted => .answer ?_ fun hsplit =>
      .defer ?_ (.cons rfl .nil))))
  · cases hn : c.notification with
    | none => simp [Rule.step, hn]
    | some n => simp [Rule.step, hn, h]
  -- a status that takes the notification out of use has its own row
  all_goals simp only [Case.hasStatus, beq_iff_eq, beq_eq_false_iff_ne] at *
  · intro hs
    simp [Rule.step, hs, withdrawal?]
  · intro hs
    simp [Rule.step, hs, withdrawal?]
  · intro hs
    simp [Rule.step, hs, withdrawal?]
  · intro hs
    simp [Rule.step, hs, withdrawal?]
  · cases hs : c.status? with
    | none => simp [Rule.step, hs]
    | some status => cases status <;> simp_all [Rule.step, withdrawal?]

theorem step_inspectionRequired : Rule.inspectionRequired.step c =
    if c.isUnderInspection then .answer (.plain .h02) else .defer := by
  cases hp : c.partTwo? with
  | none => simp [Rule.step, Case.isUnderInspection, hp]
  | some p => simp [Rule.step, Case.isUnderInspection, hp, awaitsInspection]

/-- The rows of the last guard of the intake, which asks for data to decide on. -/
theorem follows_missingSupportingData (hn : c.notification.isSome = true) :
    Chain.Follows [.missingSupportingData] (intakeRows.drop 2) c := by
  obtain ⟨n, hn⟩ := Option.isSome_iff_exists.mp hn
  have hstep : Rule.missingSupportingData.step c = missingDataStep n := by simp [Rule.step, hn]
  refine .answer ?_ fun hpending => .answer ?_ fun hpart => .defer ?_ .nil
  all_goals simp_all [Case.status?, Case.partTwo?, missingDataStep, Option.isSome_iff_ne_none]

theorem follows_intake (hn : c.notification.isSome = true) (h : c.certificate = some family) :
    Chain.Follows (intake family) intakeRows c := by
  have hmissing := follows_missingSupportingData hn
  have hanimals (hplants : c.isPlants = false) :
      Chain.Follows [.amendment, .inspectionRequired, .missingSupportingData] intakeRows c := by
    refine .cons ?_ (.cons ?_ hmissing)
    · simp [Rule.step, hplants, Case.hasStatus]
    · simp [step_inspectionRequired, hplants]
  cases family with
  | chedA => exact hanimals (by simp [Case.isPlants, h])
  | chedP => exact hanimals (by simp [Case.isPlants, h])
  | chedD => exact hanimals (by simp [Case.isPlants, h])
  | chedPP => exact .skip (by simp [Case.isPlants, h]) (.skip (by simp [Case.isPlants, h]) hmissing)

/-- The fishing control has a row for everything it may find. -/
theorem first?_fishingRows : Row.first? fishingRows c =
    if c.asksForFishing then some (fishingOutcome c.fishing?) else none := by
  cases hasks : c.asksForFishing with
  | false => simp [fishingRows, Row.first?_cons, hasks]
  | true =>
    simp only [fishingRows, Row.first?_cons, hasks, Bool.true_and, if_true]
    rcases c.fishing? with _ | ⟨required, finding⟩
    · rfl
    · cases required <;> rcases finding with _ | finding <;> try cases finding
      all_goals rfl

theorem follows_fishingRules (h : c.certificate = some family) :
    Chain.Follows (fishingRules family) fishingRows c := by
  have hother (hasks : c.asksForFishing = false) : Chain.Follows [] fishingRows c :=
    .nil_of_none (by simp [first?_fishingRows, hasks])
  cases family with
  | chedA => exact hother (by simp [Case.asksForFishing, h])
  | chedD => exact hother (by simp [Case.asksForFishing, h])
  | chedPP => exact hother (by simp [Case.asksForFishing, h])
  | chedP =>
    have hasks : c.asksForFishing = Text.sameLetters c.checkCode fishingCheck := by
      simp [Case.asksForFishing, h, fishingCheck]
    refine .rule ?_
    rw [first?_fishingRows, Rule.step, hasks]
    split <;> rfl

theorem step_commodityCode : Rule.commodityCode.step c =
    if c.isUnlisted then .answer (.detailed .h01 .e85) else .defer := by
  cases hn : c.notification with
  | none => simp [Rule.step, Case.isUnlisted, hn]
  | some n =>
    cases hcode : c.commodity.commodityCode with
    | none => simp [Rule.step, Case.isUnlisted, hn, hcode]
    | some code =>
      simp [Rule.step, Case.isUnlisted, hn, hcode, commodityCodeStep, matchingLines]

theorem step_weightTolerance (percent : Decimal) : (Rule.weightTolerance percent).step c =
    if c.isOffWeight percent then .answer (.detailed .h01 .e86) else .defer := by
  cases hn : c.notification with
  | none => simp [Rule.step, Case.isOffWeight, hn]
  | some n =>
    cases hmass : c.commodity.netMass with
    | none => simp [Rule.step, Case.isOffWeight, hn, hmass]
    | some mass =>
      cases hcode : c.commodity.commodityCode with
      | none => simp [Rule.step, Case.isOffWeight, hn, hmass, hcode]
      | some code =>
        simp only [Rule.step, Case.isOffWeight, hn, hmass, hcode, weightStep]
        cases notifiedWeight? code n.lines with
        | none => rfl
        | some notified =>
          cases hzero : notified.isZero <;>
            cases hwithin : withinTolerance percent mass notified <;> simp [hzero, hwithin]

theorem follows_commodityRules : Chain.Follows (commodityRules s) (goodsRows s) c := by
  unfold commodityRules
  refine .cons step_commodityCode ?_
  split
  · next hweights => exact .cons (by simp [step_weightTolerance, hweights]) .nil
  · next hweights => exact .skip (by simp [hweights]) .nil

end Rules

/-! ## Rules that release -/

section Deciding

variable {c : Case} {family : Certificate} {s : RuleSettings}

theorem first?_refusalRows (h : c.isPlants = false) : Row.first? refusalRows c =
    if c.verdict? = some .nonAcceptable then some (.plain (refusalCode c.refusalAction?))
    else none := by
  by_cases hv : c.verdict? = some .nonAcceptable
  · simp only [refusalRows, Row.first?_cons, Case.isRefused, h, hv, if_true]
    rcases c.refusalAction? with _ | action <;> try cases action
    all_goals rfl
  · simp [refusalRows, Row.first?_cons, Case.isRefused, h, hv]

/-- The release that a verdict grants in a family; plants have no verdicts. -/
def release? : Certificate → Notification.Verdict → Option DecisionCode
  | .chedA => chedARelease?
  | .chedP => chedPRelease?
  | .chedD => chedDRelease?
  | .chedPP => fun _ => none

theorem first?_releaseRows (h : c.certificate = some family) (hplants : family ≠ .chedPP) :
    Row.first? releaseRows c = (c.verdict?.bind (release? family)).map .plain := by
  have hnot : c.isPlants = false := by simp [Case.isPlants, h, hplants]
  simp only [releaseRows, Row.first?_cons, Case.isGranted, h, hnot]
  rcases c.verdict? with _ | verdict
  · simp
  · cases family with
    | chedA => cases verdict <;> rfl
    | chedP => cases verdict <;> rfl
    | chedD => cases verdict <;> rfl
    | chedPP => exact absurd rfl hplants

theorem verdictStep_eq (release? : Notification.Verdict → Option DecisionCode) :
    verdictStep release? c =
      if c.verdict? = some .nonAcceptable then .answer (.plain (refusalCode c.refusalAction?))
      else (c.verdict?.bind release?).elim .defer fun code => .unlessVetoed (.plain code) := by
  unfold verdictStep
  split
  · next hv => simp [hv]
  · next hv => simp [hv]
  · next verdict hne hv =>
    have hacceptable : verdict ≠ .nonAcceptable := hne
    cases hcode : release? verdict <;> simp [hv, hacceptable, hcode]

/-- A decision rule refuses and releases as the table does. -/
theorem step_decisionRule (h : c.certificate = some family) : (decisionRule family).step c =
    (Row.first? refusalRows c).elim
      ((Row.first? releaseRows c).elim .defer .unlessVetoed) .answer := by
  by_cases hplants : family = .chedPP
  · subst hplants
    have hnot : c.isPlants = true := by simp [Case.isPlants, h]
    simp only [decisionRule, Rule.step, refusalRows, releaseRows, Row.first?_cons, Case.isRefused,
      Case.isGranted, Case.hasStatus, h, hnot]
    rcases c.status? with _ | status
    · rfl
    · cases status <;> rfl
  · have hnot : c.isPlants = false := by simp [Case.isPlants, h, hplants]
    have hstep : (decisionRule family).step c = verdictStep (release? family) c := by
      cases family with
      | chedA | chedP | chedD => rfl
      | chedPP => exact absurd rfl hplants
    rw [hstep, verdictStep_eq, first?_refusalRows hnot, first?_releaseRows h hplants]
    split
    · rfl
    · cases c.verdict?.bind (release? family) <;> rfl

/-- Releases stand behind the rows of the goods, where nothing is left to veto them. -/
theorem resolve_decision (h : c.certificate = some family) :
    Chain.resolve (decisionRule family :: commodityRules s) c =
      Row.resolve (refusalRows ++ (goodsRows s ++ releaseRows)) c := by
  have hgoods : Chain.resolve (commodityRules s) c = Row.resolve (goodsRows s) c :=
    follows_commodityRules.resolve_eq
  have hstep := step_decisionRule h
  rw [Row.resolve, Row.first?_append, Row.first?_append]
  cases hrefusal : Row.first? refusalRows c with
  | some o =>
    rw [hrefusal] at hstep
    exact resolve_of_answer hstep
  | none =>
    rw [hrefusal, Option.elim_none] at hstep
    rw [Option.none_or]
    cases hrelease : Row.first? releaseRows c with
    | none =>
      rw [hrelease] at hstep
      rw [resolve_of_defer hstep, hgoods, Option.or_none, Row.resolve]
    | some o =>
      rw [hrelease] at hstep
      rw [resolve_of_unlessVetoed hstep, hgoods, Row.resolve]
      cases hrow : Row.first? (goodsRows s) c with
      | none => rfl
      | some later =>
        -- a row of the goods holds them, so it is heard in front of the release
        obtain ⟨row, hmem, rfl⟩ := Row.exists_of_first? hrow
        have hknown : row.outcome ≠ .unknown := by
          simp only [goodsRows, List.mem_cons, List.not_mem_nil, or_false] at hmem
          rcases hmem with rfl | rfl <;> simp [Outcome.detailed, Outcome.unknown]
        simp [hknown]

end Deciding

/-! ## The table and the chains -/

/-- Under the standard rules every case of a family is decided by the first row of the
table that applies to it. -/
theorem RuleSets.resolve_standard (s : RuleSettings) {family : Certificate} {c : Case}
    (h : c.certificate = some family) :
    ∃ chain, (RuleSets.standard s).select (some family) = .ok chain ∧
      chain.resolve c = Row.resolve (priorityTable s) c := by
  refine ⟨_, RuleSets.select_standard s _, ?_⟩
  have hstructural := follows_structural h
  simp only [standardChain_eq, priorityTable, List.append_assoc]
  cases hn : c.notification with
  | none =>
    have hlink : Row.first? linkRows c = some (.detailed .x00 .e70) :=
      Row.first?_cons_of_pos (by simp [hn])
    rw [hstructural.resolve_append hlink, Row.resolve, Row.first?_append, hlink, Option.some_or,
      Option.getD_some]
  | some n =>
    exact hstructural _ _ (follows_intake (by rw [hn]; rfl) h _ _
      (follows_fishingRules h _ _ (resolve_decision h)))

/-- Cattle of 150 kg where 100 kg are notified, which the border control post accepts for the
internal market. -/
def heavyCattle : Case where
  declaration := ⟨"25GB0000000000004", some 1, none, [], none⟩
  commodity := ⟨1, some "0102290500", none,
    some { Decimal.hundred with magnitude := 150, fits := by decide }, [], []⟩
  checkCode := "H221"
  certificate := some .chedA
  notification := some ⟨"CHEDA.GB.2025.1234567", .chedA, none, .validated,
    some ⟨some .internalMarket, none, none, none⟩,
    [⟨"0102", none, some Decimal.hundred⟩], none⟩
  document := none

/-- The row of their weight stands above the row that would release them. -/
theorem heavyCattle_held : heavyCattle.certificate = some .chedA ∧
    ∃ chain, (RuleSets.standard .standard).select (some .chedA) = .ok chain ∧
      chain.resolve heavyCattle = .detailed .h01 .e86 := by
  obtain ⟨chain, hchain, hresolve⟩ := RuleSets.resolve_standard .standard (c := heavyCattle) rfl
  refine ⟨rfl, chain, hchain, hresolve.trans ?_⟩
  decide +kernel

end BorderControl
