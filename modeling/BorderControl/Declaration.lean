import BorderControl.Decimal
import BorderControl.Decision
import BorderControl.Notification

/-!
# Declarations

A customs declaration goes by its movement reference number (MRN). Each of its items is
a `Commodity` with the documents declared for it and the checks that customs asks for.
A `Dossier` is what one run decides on: declarations, and all notifications that may
concern them.
-/

namespace BorderControl

/-- How customs closed a declaration. -/
inductive FinalState where
  | cleared
  | cancelledAfterArrival
  | cancelledWhilePreLodged
  | destroyed
  | seized
  | releasedToKingsWarehouse
  | transferredToMss
deriving DecidableEq, Repr

namespace FinalState

/-- The goods are out of reach: cancelled or destroyed. -/
def isTerminal : FinalState → Bool
  | cancelledAfterArrival | cancelledWhilePreLodged | destroyed => true
  | _ => false

instance : Vocabulary FinalState where
  members := [cleared, cancelledAfterArrival, cancelledWhilePreLodged, destroyed, seized,
    releasedToKingsWarehouse, transferredToMss]
  word
    | cleared => "cleared"
    | cancelledAfterArrival => "cancelled_after_arrival"
    | cancelledWhilePreLodged => "cancelled_while_pre_lodged"
    | destroyed => "destroyed"
    | seized => "seized"
    | releasedToKingsWarehouse => "released_to_kings_warehouse"
    | transferredToMss => "transferred_to_mss"

end FinalState

structure Finalisation where
  finalState : FinalState
  isManualRelease : Bool
deriving DecidableEq, Repr

/-- A document declared for a commodity. -/
structure Document where
  code : String
  reference : String
deriving DecidableEq, Repr

/-- A check that customs asks for. -/
structure Check where
  code : String
deriving DecidableEq, Repr

/-- An item of a declaration. -/
structure Commodity where
  itemNumber : UInt32
  commodityCode : Option String
  description : Option String
  netMass : Option Decimal
  documents : List Document
  checks : List Check
deriving DecidableEq, Repr

structure Declaration where
  mrn : String
  version : Option UInt32
  finalisation : Option Finalisation
  commodities : List Commodity
  /-- The decision kept from an earlier run. -/
  decision : Option Decision
deriving DecidableEq, Repr

/-- Customs closed the declaration as cancelled or destroyed. -/
def Declaration.isTerminal (d : Declaration) : Bool :=
  match d.finalisation with
  | some f => f.finalState.isTerminal
  | none => false

/-- Declarations, and the notifications that may concern them. -/
structure Dossier where
  declarations : List Declaration
  notifications : List Notification
deriving DecidableEq, Repr

end BorderControl
