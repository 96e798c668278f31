import BorderControl.Code
import BorderControl.Timestamp

/-!
# Decisions

Resolving one check against one document and one notification gives a `Finding`. The
findings of a declaration fold into its `Decision`: per item and check code the answer
that counts (`CheckDecision`), and every finding as an entry of the results (`Result`).
A decision carries a marker of what it was derived from (`sourceVersion`) and the time it
was made.
-/

namespace BorderControl

/-- The answer to a check for one document and one notification. -/
structure Finding where
  mrn : String
  itemNumber : UInt32
  documentReference : Option String
  documentCode : Option String
  checkCode : String
  notificationReference : Option String
  decisionCode : DecisionCode
  detailCode : Option DetailCode
  reasons : List String
deriving DecidableEq, Repr

/-- The answer to one check of one item. -/
structure CheckDecision where
  checkCode : String
  decisionCode : DecisionCode
  reasons : List String
  detailCodes : List DetailCode
deriving DecidableEq, Repr

structure ItemDecision where
  itemNumber : UInt32
  checks : List CheckDecision
deriving DecidableEq, Repr

/-- A finding as it is kept with the decision. -/
structure Result where
  itemNumber : UInt32
  notificationReference : Option String
  documentReference : Option String
  documentCode : Option String
  checkCode : String
  decisionCode : DecisionCode
  reason : Option String
  detailCode : Option DetailCode
deriving DecidableEq, Repr

structure Decision where
  sourceVersion : Option String
  created : Option Timestamp
  items : List ItemDecision
  results : Option (List Result)
deriving DecidableEq, Repr

namespace Decision

/-- The decision that says nothing. -/
def blank : Decision := ⟨none, none, [], none⟩

/-- The first item with the number `n`. -/
def item? (d : Decision) (n : UInt32) : Option ItemDecision :=
  d.items.find? fun i => i.itemNumber == n

end Decision

/-- The first check with the code `code`. -/
def ItemDecision.check? (i : ItemDecision) (code : String) : Option CheckDecision :=
  i.checks.find? fun c => c.checkCode == code

/-- The result is linked to a notification. -/
def Result.isLinked (r : Result) : Bool := r.notificationReference.isSome

/-- The entry that keeps a finding; its reasons become one text. -/
def Finding.toResult (f : Finding) : Result where
  itemNumber := f.itemNumber
  notificationReference := f.notificationReference
  documentReference := f.documentReference
  documentCode := f.documentCode
  checkCode := f.checkCode
  decisionCode := f.decisionCode
  reason := if f.reasons = [] then none else some (" ".intercalate f.reasons)
  detailCode := f.detailCode

end BorderControl
