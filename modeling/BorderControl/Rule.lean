import BorderControl.Case

/-!
# Rules

A rule looks at a case and takes one of three steps (`Step`). It answers; or it defers to
the rules behind it; or it grants a release that holds unless a rule behind it answers.
The last step lets the comparison of commodity lines, which stands at the end of every
chain, veto a release.

The rules fall into three groups. Structural rules answer where the notification's own
decision does not matter. Each certificate family has a rule that turns the decision of
its border control post into an outcome. Commodity rules compare the declared goods with
the notified ones, and only ever hold.
-/

namespace BorderControl

/-- What a rule does with a case. -/
inductive Step where
  /-- The outcome, whatever rules follow. -/
  | answer (o : Outcome)
  /-- No opinion. -/
  | defer
  /-- The outcome, unless a later rule answers. -/
  | unlessVetoed (o : Outcome)
deriving DecidableEq, Repr

/-- The rules; a weight rule knows its tolerance in percent. `pass` defers on every case
and `fixed` answers every case alike. -/
inductive Rule where
  | orphanCheckCode
  | unlinkedNotification
  | wrongCertificate
  | notificationStatus
  | terminalDeclaration
  | amendment
  | inspectionRequired
  | missingSupportingData
  | chedADecision
  | chedPDecision
  | chedDDecision
  | chedPPDecision
  | fishingControl
  | commodityCode
  | weightTolerance (percent : Decimal)
  | pass
  | fixed (o : Outcome)
deriving DecidableEq, Repr

namespace Rule

def name : Rule → String
  | orphanCheckCode => "orphan_check_code"
  | unlinkedNotification => "unlinked_notification"
  | wrongCertificate => "wrong_certificate_type"
  | notificationStatus => "notification_status"
  | terminalDeclaration => "terminal_declaration"
  | amendment => "amendment"
  | inspectionRequired => "inspection_required"
  | missingSupportingData => "missing_supporting_data"
  | chedADecision => "cheda_decision"
  | chedPDecision => "chedp_decision"
  | chedDDecision => "chedd_decision"
  | chedPPDecision => "chedpp_decision"
  | fishingControl => "iuu_check"
  | commodityCode => "commodity_code"
  | weightTolerance _ => "weight_tolerance"
  | pass => "defer"
  | fixed _ => "fixed"

/-! ## Refusals and releases -/

/-- What a refusal tells the trader to do. -/
def refusalCode : Option Notification.RefusalAction → DecisionCode
  | some .destruction | some .euthanasia | some .slaughter => .n02
  | some .transformation => .n03
  | some .reexport => .n04
  | some .redispatching => .n05
  | some .other | none => .n07

/-- The release that a verdict grants live animals. -/
def chedARelease? : Notification.Verdict → Option DecisionCode
  | .internalMarket => some .c03
  | .temporaryImport => some .c05
  | .horseReEntry | .ifChanneled => some .c06
  | .transhipment | .transit | .specificWarehouse => some .e03
  | .nonAcceptable => none

/-- The release that a verdict grants products of animal origin. -/
def chedPRelease? : Notification.Verdict → Option DecisionCode
  | .internalMarket => some .c03
  | .ifChanneled => some .c06
  | .transhipment | .transit | .specificWarehouse => some .e03
  | .temporaryImport | .horseReEntry | .nonAcceptable => none

/-- The release that a verdict grants food and feed. -/
def chedDRelease? : Notification.Verdict → Option DecisionCode
  | .internalMarket => some .c03
  | _ => none

/-- Refuses what is not acceptable, releases what `release?` grants, and has no opinion
on other verdicts. -/
def verdictStep (release? : Notification.Verdict → Option DecisionCode) (c : Case) : Step :=
  match c.verdict? with
  | none => .defer
  | some .nonAcceptable => .answer (.plain (refusalCode c.refusalAction?))
  | some verdict =>
    match release? verdict with
    | some code => .unlessVetoed (.plain code)
    | none => .defer

/-! ## The steps -/

/-- Detail of a status that takes the notification out of use. -/
def withdrawal? : Notification.Status → Option DetailCode
  | .cancelled => some .e71
  | .replaced => some .e72
  | .deleted => some .e73
  | .splitConsignment => some .e74
  | _ => none

/-- An inspection was asked for and nothing is decided. -/
def awaitsInspection (p : Notification.PartTwo) : Bool :=
  (p.inspection == some .required || p.inspection == some .inconclusive) && p.verdict.isNone

def fishingOutcome : Option Notification.FishingControl → Outcome
  | none => .detailed .x00 .e87
  | some control =>
    if !control.checkRequired then .plain .c08
    else
      match control.finding with
      | some .compliant => .plain .c07
      | some .notCompliant => .plain .n07
      | some .notApplicable => .plain .c08
      | none => .plain .h02

def missingDataStep (n : Notification) : Step :=
  if n.status.isPending then .answer (.plain .h01)
  else if n.partTwo.isNone then .answer (.detailed .x00 .e88)
  else .defer

def statusStep : Option Notification.Status → Step
  | some .validated => .unlessVetoed (.plain .c03)
  | some .rejected => .answer (.plain .n01)
  | some .partiallyRejected => .answer (.plain .h01)
  | _ => .defer

/-- The code declared for a commodity has to be on a notification that lists any. -/
def commodityCodeStep (n : Notification) (declaredCode : String) : Step :=
  if n.lines ≠ [] && (matchingLines declaredCode n.lines).isEmpty then
    .answer (.detailed .h01 .e85)
  else .defer

/-- A mass is compared with the weight notified for its code, if that is not zero. -/
def weightStep (percent : Decimal) (n : Notification) (mass : Decimal) (declaredCode : String) :
    Step :=
  match notifiedWeight? declaredCode n.lines with
  | none => .answer (.detailed .h01 .e86)
  | some notified =>
    if notified.isZero || withinTolerance percent mass notified then .defer
    else .answer (.detailed .h01 .e86)

def step (r : Rule) (c : Case) : Step :=
  match r with
  | orphanCheckCode => if c.certificate.isNone then .answer (.detailed .x00 .e75) else .defer
  | unlinkedNotification => if c.notification.isNone then .answer (.detailed .x00 .e70) else .defer
  | wrongCertificate =>
    match c.notification, c.certificate with
    | some n, some expected =>
      if n.certificate ≠ expected then .answer (.detailed .x00 .e80) else .defer
    | _, _ => .defer
  | notificationStatus =>
    match c.status?.bind withdrawal? with
    | some detail => .answer (.detailed .x00 detail)
    | none => .defer
  | terminalDeclaration =>
    if c.declaration.isTerminal then .answer (.detailed .x00 .e82) else .defer
  | amendment => if c.status? = some .amend then .answer (.detailed .h01 .e84) else .defer
  | inspectionRequired =>
    match c.partTwo? with
    | some p => if awaitsInspection p then .answer (.plain .h02) else .defer
    | none => .defer
  | missingSupportingData =>
    match c.notification with
    | some n => missingDataStep n
    | none => .defer
  | chedADecision => verdictStep chedARelease? c
  | chedPDecision => verdictStep chedPRelease? c
  | chedDDecision => verdictStep chedDRelease? c
  | chedPPDecision => statusStep c.status?
  | fishingControl =>
    if Text.sameLetters c.checkCode fishingCheck then
      .answer (fishingOutcome (c.partTwo?.bind (·.fishing)))
    else .defer
  | commodityCode =>
    match c.notification, c.commodity.commodityCode with
    | some n, some code => commodityCodeStep n code
    | _, _ => .defer
  | weightTolerance percent =>
    match c.notification, c.commodity.netMass, c.commodity.commodityCode with
    | some n, some mass, some code => weightStep percent n mass code
    | _, _, _ => .defer
  | pass => .defer
  | fixed o => .answer o

end Rule

end BorderControl
