import BorderControl.Checking
import BorderControl.Decision.Build

/-!
# Deriving decisions

The decision on a declaration is built from the findings of all its checks, item by item
and check by check (`Declaration.findings`, `Declaration.derive`). A dossier is decided
declaration by declaration, each with all notifications (`Dossier.derive`).
-/

namespace BorderControl

/-- The results of `f` on the members of a list, one after the other, up to the first
error. -/
def collect {α β ε : Type} (f : α → Except ε (List β)) : List α → Except ε (List β)
  | [] => .ok []
  | a :: rest => do return (← f a) ++ (← collect f rest)

namespace Declaration

/-- The findings of all checks of the declaration. -/
def findings (d : Declaration) (sets : RuleSets) (notifications : List Notification) :
    Except DerivationError (List Finding) :=
  collect (fun commodity =>
    collect (fun check : Check => check.findings sets d notifications commodity) commodity.checks)
    d.commodities

/-- The decision on the declaration, made at the time `now`. -/
def derive (d : Declaration) (sets : RuleSets) (now : Timestamp)
    (notifications : List Notification) : Except DerivationError Decision := do
  return Decision.build now d notifications (← d.findings sets notifications)

end Declaration

/-- The MRN of every declaration with the decision on it. -/
def Dossier.derive (dossier : Dossier) (sets : RuleSets) (now : Timestamp) :
    Except DerivationError (List (String × Decision)) :=
  collect (fun d : Declaration => do
    return [(d.mrn, ← d.derive sets now dossier.notifications)]) dossier.declarations

end BorderControl
