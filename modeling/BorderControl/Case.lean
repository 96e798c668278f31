import BorderControl.CheckFamily

/-!
# Cases and outcomes

A `Case` is what the rules look at when one check is resolved: the declaration, the
commodity, the check, and the notification and the document it is resolved against, if
there are any. An `Outcome` is a decision code with an optional detail code.

A commodity is compared with the lines of the notification whose code the declared code
begins with (`matchingLines`). Their weights add up to the notified weight
(`notifiedWeight?`), and `withinTolerance` says whether a declared mass is close enough
to it.
-/

namespace BorderControl

structure Outcome where
  decisionCode : DecisionCode
  detailCode : Option DetailCode
deriving DecidableEq, Repr

namespace Outcome

def plain (c : DecisionCode) : Outcome := ⟨c, none⟩

def detailed (c : DecisionCode) (detail : DetailCode) : Outcome := ⟨c, some detail⟩

/-- No rule answered. -/
def unknown : Outcome := detailed .x00 .e99

end Outcome

structure Case where
  declaration : Declaration
  commodity : Commodity
  checkCode : String
  /-- The family of the check; none for an orphan. -/
  certificate : Option Certificate
  notification : Option Notification
  document : Option Document

namespace Case

def partTwo? (c : Case) : Option Notification.PartTwo := c.notification.bind (·.partTwo)

/-- What the border control post decided. -/
def verdict? (c : Case) : Option Notification.Verdict := c.partTwo?.bind (·.verdict)

def refusalAction? (c : Case) : Option Notification.RefusalAction :=
  c.partTwo?.bind (·.refusalAction)

def status? (c : Case) : Option Notification.Status := c.notification.map (·.status)

end Case

/-! ## Commodity lines -/

/-- The declared code begins with the line's code, which is not blank. -/
def Notification.Line.covers (line : Notification.Line) (declaredCode : String) : Bool :=
  let code := (Text.trim line.commodityCode).toList
  code ≠ [] && code.isPrefixOf (Text.trim declaredCode).toList

/-- The lines of a notification that a declared commodity code falls under. -/
def matchingLines (declaredCode : String) (lines : List Notification.Line) :
    List Notification.Line :=
  lines.filter (·.covers declaredCode)

/-- The sum of the weights, if it is a decimal at every step. -/
def sumFrom? (total : Decimal) : List Decimal → Option Decimal
  | [] => some total
  | w :: rest =>
    match total.add? w with
    | none => none
    | some total => sumFrom? total rest

/-- The weight notified for a declared commodity code. -/
def notifiedWeight? (declaredCode : String) (lines : List Notification.Line) : Option Decimal :=
  sumFrom? .zero ((matchingLines declaredCode lines).filterMap (·.netWeight))

/-- `declared` differs from `notified` by at most `percent` of a hundred parts of it.
Numbers too large to compare are not within any tolerance. -/
def withinTolerance (percent declared notified : Decimal) : Bool :=
  match ((declared.sub? notified).map Decimal.abs).bind (·.mul? .hundred),
      notified.mul? percent with
  | some difference, some allowed => difference.le allowed
  | _, _ => false

end BorderControl
