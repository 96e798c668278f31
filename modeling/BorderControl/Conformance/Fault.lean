import BorderControl.Conformance

/-!
# Faulty backends

A backend can be made to break single rules (`Faults`, `Backend.withFaults`), which shows
what the conformance suite notices. Of several faults that concern one answer, the one
listed first wins. Writes look at the sound backend underneath, never at its faulty
fetch.
-/

namespace BorderControl

namespace Conformance

/-- The rules that a faulty backend breaks. -/
structure Faults where
  /-- Fetching always fails. -/
  fetchFails : Bool
  /-- An unknown declaration is fetched as one without content. -/
  fetchInventsUnknown : Bool
  /-- The error for an unknown declaration names another one. -/
  fetchNamesAnother : Bool
  /-- A fetched declaration has another MRN. -/
  wrongMrn : Bool
  /-- A fetched declaration has no marker. -/
  noVersion : Bool
  /-- A fetched declaration has a marker that nobody wrote. -/
  phantomVersion : Bool
  /-- A fetched declaration has a decision that nobody wrote. -/
  phantomDecision : Bool
  /-- Listing always fails. -/
  listFails : Bool
  /-- No notifications are listed. -/
  dropNotifications : Bool
  /-- A notification is listed that nobody linked. -/
  phantomNotification : Bool
  /-- Writing always fails. -/
  writeFails : Bool
  /-- A write is acknowledged and forgotten. -/
  swallowWrites : Bool
  /-- A write to an unknown declaration is acknowledged. -/
  writeInventsUnknown : Bool
  /-- A write does not look at the marker it expects. -/
  ignoreVersion : Bool
  /-- A write that meets another marker is refused and done all the same. -/
  overwriteOnConflict : Bool
  /-- A conflict does not tell the marker that was found. -/
  conflictWithoutActual : Bool
  /-- A conflict is reported as an unknown declaration. -/
  conflictAsNotFound : Bool
  /-- Every write is the first of the log. -/
  constantSequence : Bool
  /-- A write does not tell the marker it replaced. -/
  forgetPrevious : Bool
  /-- A write does not tell the marker it stored. -/
  forgetSource : Bool
deriving DecidableEq, Repr

namespace Faults

/-- The declaration with this MRN and nothing else. -/
def bareDeclaration (mrn : String) : Declaration := ⟨mrn, none, none, [], none⟩

def alterRecord (f : Faults) (r : DeclarationRecord) : DeclarationRecord :=
  let d := r.declaration
  { declaration := { d with
      mrn := if f.wrongMrn then d.mrn ++ "X" else d.mrn
      decision := if f.phantomDecision then some .blank else d.decision }
    decisionVersion :=
      if f.noVersion then none
      else if f.phantomVersion then some "phantom"
      else r.decisionVersion }

def alterWrite (f : Faults) (r : WriteRecord) : WriteRecord where
  mrn := r.mrn
  sequence := if f.constantSequence then 1 else r.sequence
  previousVersion := if f.forgetPrevious then none else r.previousVersion
  sourceVersion := if f.forgetSource then none else r.sourceVersion

def alterError (f : Faults) : StoreError → StoreError
  | .conflict mrn expected actual =>
    if f.conflictWithoutActual then .conflict mrn expected none
    else if f.conflictAsNotFound then .notFound mrn
    else .conflict mrn expected actual
  | e => e

/-- The acknowledgement of a write that is not done. -/
def madeUpRecord (mrn : String) (d : Decision) (expected : Option String) : WriteRecord :=
  ⟨mrn, 7, expected, d.sourceVersion⟩

variable {σ : Type}

def fetch (f : Faults) (b : Backend σ) (s : σ) (mrn : String) :
    Except StoreError DeclarationRecord :=
  if f.fetchFails then .error (.backend "fetch down")
  else
    match b.fetch s mrn with
    | .ok record => .ok (f.alterRecord record)
    | .error (.notFound mrn') =>
      if f.fetchInventsUnknown then .ok ⟨bareDeclaration mrn, none⟩
      else if f.fetchNamesAnother then .error (.notFound (mrn' ++ "?"))
      else .error (.notFound mrn')
    | .error e => .error e

def list (f : Faults) (b : Backend σ) (s : σ) (mrn : String) :
    Except StoreError (List Notification) :=
  if f.listFails then .error (.backend "list down")
  else do
    let found ← b.list s mrn
    let kept := if f.dropNotifications then [] else found
    return if f.phantomNotification then kept ++ [notification "phantom"] else kept

def write (f : Faults) (b : Backend σ) (s : σ) (mrn : String) (d : Decision)
    (expected : Option String) : Except StoreError WriteRecord × σ :=
  if f.writeFails then (.error (.backend "write down"), s)
  else if f.swallowWrites then (.ok (madeUpRecord mrn d expected), s)
  else
    match b.fetch s mrn with
    | .error _ =>
      if f.writeInventsUnknown then (.ok (madeUpRecord mrn d expected), s)
      else (.error (.notFound mrn), s)
    | .ok stored =>
      let careless := f.ignoreVersion || f.overwriteOnConflict
      let (answer, s) :=
        b.write s mrn d (if careless then stored.decisionVersion else expected)
      if f.overwriteOnConflict && stored.decisionVersion ≠ expected then
        (.error (.conflict mrn expected stored.decisionVersion), s)
      else
        match answer with
        | .ok record => (.ok (f.alterWrite record), s)
        | .error e => (.error (f.alterError e), s)

end Faults

end Conformance

/-- The backend with the rules broken that `f` names. -/
def Backend.withFaults {σ : Type} (b : Backend σ) (f : Conformance.Faults) : Backend σ where
  fetch := f.fetch b
  list := f.list b
  write := f.write b

end BorderControl
