import BorderControl.Certificate
import BorderControl.Decimal
import BorderControl.Timestamp

/-!
# Pre-notifications

A trader notifies the border control post of a consignment before it arrives. The post
records its assessment in part two of the notification (`PartTwo`): what it decided,
whether it asks for an inspection, and for fish the control of illegal, unreported and
unregulated fishing (`FishingControl`).
-/

namespace BorderControl

namespace Notification

inductive Status where
  | draft
  | submitted
  | inProgress
  | amend
  | validated
  | rejected
  | partiallyRejected
  | cancelled
  | deleted
  | replaced
  | splitConsignment
deriving DecidableEq, Repr

namespace Status

/-- The border control post has not decided yet. -/
def isPending : Status → Bool
  | draft | submitted | inProgress => true
  | _ => false

instance : Vocabulary Status where
  members := [draft, submitted, inProgress, amend, validated, rejected, partiallyRejected,
    cancelled, deleted, replaced, splitConsignment]
  word
    | draft => "draft"
    | submitted => "submitted"
    | inProgress => "in_progress"
    | amend => "amend"
    | validated => "validated"
    | rejected => "rejected"
    | partiallyRejected => "partially_rejected"
    | cancelled => "cancelled"
    | deleted => "deleted"
    | replaced => "replaced"
    | splitConsignment => "split_consignment"

end Status

/-- What the border control post decided about the consignment. -/
inductive Verdict where
  | internalMarket
  | transhipment
  | transit
  | temporaryImport
  | specificWarehouse
  | ifChanneled
  | horseReEntry
  | nonAcceptable
deriving DecidableEq, Repr

instance : Vocabulary Verdict where
  members := [.internalMarket, .transhipment, .transit, .temporaryImport, .specificWarehouse,
    .ifChanneled, .horseReEntry, .nonAcceptable]
  word
    | .internalMarket => "acceptable_for_internal_market"
    | .transhipment => "acceptable_for_transhipment"
    | .transit => "acceptable_for_transit"
    | .temporaryImport => "acceptable_for_temporary_import"
    | .specificWarehouse => "acceptable_for_specific_warehouse"
    | .ifChanneled => "acceptable_if_channeled"
    | .horseReEntry => "horse_re_entry"
    | .nonAcceptable => "non_acceptable"

/-- What is to happen to a consignment that is not acceptable. -/
inductive RefusalAction where
  | euthanasia
  | slaughter
  | reexport
  | redispatching
  | destruction
  | transformation
  | other
deriving DecidableEq, Repr

instance : Vocabulary RefusalAction where
  members := [.euthanasia, .slaughter, .reexport, .redispatching, .destruction,
    .transformation, .other]
  word
    | .euthanasia => "euthanasia"
    | .slaughter => "slaughter"
    | .reexport => "reexport"
    | .redispatching => "redispatching"
    | .destruction => "destruction"
    | .transformation => "transformation"
    | .other => "other"

/-- Whether the consignment is to be inspected. -/
inductive InspectionNeed where
  | required
  | inconclusive
  | notRequired
deriving DecidableEq, Repr

instance : Vocabulary InspectionNeed where
  members := [.required, .inconclusive, .notRequired]
  word
    | .required => "required"
    | .inconclusive => "inconclusive"
    | .notRequired => "not_required"

/-- The finding of a fishing control. -/
inductive FishingFinding where
  | compliant
  | notCompliant
  | notApplicable
deriving DecidableEq, Repr

instance : Vocabulary FishingFinding where
  members := [.compliant, .notCompliant, .notApplicable]
  word
    | .compliant => "compliant"
    | .notCompliant => "not_compliant"
    | .notApplicable => "not_applicable"

/-- The control of illegal, unreported and unregulated fishing. -/
structure FishingControl where
  checkRequired : Bool
  finding : Option FishingFinding
deriving DecidableEq, Repr

/-- The assessment of the border control post. -/
structure PartTwo where
  verdict : Option Verdict
  refusalAction : Option RefusalAction
  inspection : Option InspectionNeed
  fishing : Option FishingControl
deriving DecidableEq, Repr

/-- A commodity line of a notification. -/
structure Line where
  commodityCode : String
  description : Option String
  netWeight : Option Decimal
deriving DecidableEq, Repr

end Notification

structure Notification where
  reference : String
  certificate : Certificate
  version : Option UInt32
  status : Notification.Status
  partTwo : Option Notification.PartTwo
  lines : List Notification.Line
  updated : Option Timestamp
deriving DecidableEq, Repr

end BorderControl
