import BorderControl.Decision
import BorderControl.Sorted

/-!
# Comparing decisions

Two relations keep stored decisions from being written again and again. Decisions are
the same (`Decision.sameAs`) if their markers are equal, or else if their results agree
entry by entry, reasons included, once both are sorted by document. A marker that is
missing equals no marker.

Checks exist (`itemsExist`) if item, check code and decision code agree, so that a check
whose reasons are worded anew is not a new check.
-/

namespace BorderControl

/-! ## Same decision -/

/-- The order of optional texts: a missing one comes first. -/
def optionLe : Option String → Option String → Bool
  | none, _ => true
  | some _, none => false
  | some a, some b => a ≤ b

namespace Result

/-- The order of results by document: by its reference, then its code. -/
def documentLe (a b : Result) : Bool :=
  if a.documentReference = b.documentReference then optionLe a.documentCode b.documentCode
  else optionLe a.documentReference b.documentReference

/-- The results record the same fact. Which notification a result is linked to does not
matter, only whether there is one; nor does the code of its document. -/
def agrees (a b : Result) : Bool :=
  a.itemNumber == b.itemNumber &&
  a.isLinked == b.isLinked &&
  a.documentReference == b.documentReference &&
  a.checkCode == b.checkCode &&
  a.decisionCode == b.decisionCode &&
  a.reason == b.reason &&
  a.detailCode == b.detailCode

end Result

/-- The lists have one length, and their members at each place are related. -/
def pairwiseAgree {α : Type} (r : α → α → Bool) : List α → List α → Bool
  | [], [] => true
  | a :: as, b :: bs => r a b && pairwiseAgree r as bs
  | _, _ => false

/-- The results agree once they are sorted by document. -/
def resultsMatch (a b : List Result) : Bool :=
  pairwiseAgree Result.agrees (sortBy Result.documentLe a) (sortBy Result.documentLe b)

/-- Both are missing, or both are there and related. -/
def optionsAgree {α : Type} (r : α → α → Bool) : Option α → Option α → Bool
  | none, none => true
  | some a, some b => r a b
  | _, _ => false

namespace Decision

/-- Both decisions have a marker, and it is the same. -/
def sameMarker (a b : Decision) : Bool :=
  a.sourceVersion.isSome && a.sourceVersion == b.sourceVersion

/-- Neither decision needs to be written where the other one is stored. -/
def sameAs (a b : Decision) : Bool :=
  a.sameMarker b || optionsAgree resultsMatch a.results b.results

end Decision

/-! ## Existing checks -/

namespace ItemDecision

/-- What identifies the checks of an item, sorted by check code. -/
def checkKeys (i : ItemDecision) : List (String × DecisionCode) :=
  sortBy (fun a b => a.1 ≤ b.1) (i.checks.map fun c => (c.checkCode, c.decisionCode))

/-- The items have one number and the same checks. -/
def agrees (a b : ItemDecision) : Bool :=
  a.itemNumber == b.itemNumber && a.checkKeys == b.checkKeys

end ItemDecision

/-- The items of both lists agree once they are sorted by number. -/
def itemListsExist (a b : List ItemDecision) : Bool :=
  let le := fun x y : ItemDecision => decide (x.itemNumber ≤ y.itemNumber)
  pairwiseAgree ItemDecision.agrees (sortBy le a) (sortBy le b)

def itemsExist : Option (List ItemDecision) → Option (List ItemDecision) → Bool :=
  optionsAgree itemListsExist

end BorderControl
