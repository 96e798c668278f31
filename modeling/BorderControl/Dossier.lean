import BorderControl.Form.Declaration

/-!
# Loading dossiers

A dossier is given in full, as an object that names declarations or notifications, or as
a single declaration without notifications (`Dossier.ofJson`). The declarations of a loaded
dossier have an MRN that is not blank and no item number twice (`Declaration.checkItems`);
the first declaration that offends decides the error.
-/

namespace BorderControl

/-- What a value was read as. -/
inductive Shape where
  | dossier
  | declaration
  | decision
deriving DecidableEq, Repr

def Shape.text : Shape → String
  | dossier => "declaration context"
  | declaration => "declaration"
  | decision => "decision"

/-- Why data is not taken in. -/
inductive LoadError where
  | shape (expected : Shape)
  | duplicateItem (mrn : String) (itemNumber : UInt32)
  | missingMrn
deriving DecidableEq, Repr

def LoadError.message : LoadError → String
  | shape expected => s!"invalid {expected.text}"
  | duplicateItem mrn n => s!"declaration {mrn}: duplicate item number {n.toNat}"
  | missingMrn => "declaration with empty mrn"

/-- The first number of the list that stands further left already, or in `seen`. -/
def firstRepeated? (seen : List UInt32) : List UInt32 → Option UInt32
  | [] => none
  | n :: rest => if n ∈ seen then some n else firstRepeated? (n :: seen) rest

/-- A declaration needs an MRN, and its items different numbers. -/
def Declaration.checkItems (d : Declaration) : Except LoadError Unit :=
  if Text.allBlank d.mrn then .error .missingMrn
  else
    match firstRepeated? [] (d.commodities.map (·.itemNumber)) with
    | some n => .error (.duplicateItem d.mrn n)
    | none => .ok ()

namespace Dossier

/-- Reads the shape of a dossier, whatever its declarations hold. -/
def ofJson (j : Json) : Except LoadError Dossier :=
  if (j.member? "declarations").isSome || (j.member? "notifications").isSome then
    match ofJson? j with
    | some dossier => .ok dossier
    | none => .error (.shape .dossier)
  else
    match ofJson? j with
    | some declaration => .ok ⟨[declaration], []⟩
    | none => .error (.shape .declaration)

/-- Reads a dossier and checks its declarations in order. -/
def load (j : Json) : Except LoadError Dossier := do
  let dossier ← ofJson j
  dossier.declarations.forM Declaration.checkItems
  return dossier

end Dossier

/-- Reads a decision. -/
def Decision.load (j : Json) : Except LoadError Decision :=
  match ofJson? j with
  | some decision => .ok decision
  | none => .error (.shape .decision)

end BorderControl
