import BorderControl.Decision.Marker

/-!
# From findings to a decision

The findings of a declaration are grouped by item and check code, both ascending. Of
each group the decision keeps the code of highest severity, the last one where several
share it (`mostSevere`), and every reason and detail code once, in the order in which
they first appear (`foldCheck`).
-/

namespace BorderControl

/-- The last of the codes of highest severity among `best` and those of the list. -/
def mostSevereFrom (best : DecisionCode) : List DecisionCode → DecisionCode
  | [] => best
  | c :: rest => mostSevereFrom (if best.severity ≤ c.severity then c else best) rest

/-- The code that counts among several; without any, the check is unresolved. -/
def mostSevere : List DecisionCode → DecisionCode
  | [] => .x00
  | c :: rest => mostSevereFrom c rest

/-- The answer to a check from the findings for it. -/
def foldCheck (code : String) (findings : List Finding) : CheckDecision where
  checkCode := code
  decisionCode := mostSevere (findings.map (·.decisionCode))
  reasons := (findings.flatMap (·.reasons)).eraseDups
  detailCodes := (findings.filterMap (·.detailCode)).eraseDups

/-- The answers for an item from the findings for it. -/
def foldItem (n : UInt32) (findings : List Finding) : ItemDecision where
  itemNumber := n
  checks := (distinct (fun a b : String => a ≤ b) (findings.map (·.checkCode))).map fun code =>
    foldCheck code (findings.filter (·.checkCode == code))

def foldItems (findings : List Finding) : List ItemDecision :=
  (distinct (fun a b : UInt32 => a ≤ b) (findings.map (·.itemNumber))).map fun n =>
    foldItem n (findings.filter (·.itemNumber == n))

/-- The decision that the findings of a declaration make at the time `now`. -/
def Decision.build (now : Timestamp) (declaration : Declaration)
    (notifications : List Notification) (findings : List Finding) : Decision where
  sourceVersion := some (marker declaration notifications findings)
  created := some now
  items := foldItems findings
  results := some (findings.map Finding.toResult)

end BorderControl
