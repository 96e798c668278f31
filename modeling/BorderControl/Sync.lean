import BorderControl.Decision.Comparison
import BorderControl.Derivation
import BorderControl.Store.Backend

/-!
# Keeping stored decisions in step

A sync fetches a declaration, lists its notifications, derives the decision and writes it
unless the stored one is the same (`sync`). Nothing locks the backend between these
steps. The write names the marker that was fetched, so that a writer who came in between
makes it fail.

The steps are functions of their own (`Sync.fetch`, `Sync.plan`, `Sync.carryOut`), each
of which the backend answers in one go.
-/

namespace BorderControl

inductive SyncError where
  | derivation (e : DerivationError)
  | store (e : StoreError)
deriving DecidableEq, Repr

def SyncError.message : SyncError → String
  | derivation e => e.message
  | store e => e.message

/-- What a sync did, and the decision it derived. -/
inductive SyncOutcome where
  | written (d : Decision) (record : WriteRecord)
  | unchanged (d : Decision)
deriving DecidableEq, Repr

namespace SyncOutcome

def decision : SyncOutcome → Decision
  | written d _ | unchanged d => d

def record? : SyncOutcome → Option WriteRecord
  | written _ record => some record
  | unchanged _ => none

def wasWritten (o : SyncOutcome) : Bool := o.record?.isSome

end SyncOutcome

namespace Sync

/-- What a sync means to do: keep the stored decision, or write the derived one over the
decision with the marker `expected`. -/
inductive Plan where
  | keep (d : Decision)
  | write (d : Decision) (expected : Option String)
deriving DecidableEq, Repr

/-- Writes unless the stored decision is the same as the derived one. -/
def Plan.of (record : DeclarationRecord) (derived : Decision) : Plan :=
  match record.declaration.decision with
  | some prior =>
    if prior.sameAs derived then .keep derived else .write derived record.decisionVersion
  | none => .write derived record.decisionVersion

variable {σ : Type}

def fetch (b : Backend σ) (mrn : String) (s : σ) : Except SyncError DeclarationRecord :=
  (b.fetch s mrn).mapError .store

/-- Lists the notifications and derives the decision. -/
def plan (b : Backend σ) (sets : RuleSets) (now : Timestamp) (mrn : String)
    (record : DeclarationRecord) (s : σ) : Except SyncError Plan := do
  let notifications ← (b.list s mrn).mapError SyncError.store
  let derived ← (record.declaration.derive sets now notifications).mapError SyncError.derivation
  return Plan.of record derived

def carryOut (b : Backend σ) (mrn : String) (p : Plan) (s : σ) :
    Except SyncError SyncOutcome × σ :=
  match p with
  | .keep d => (.ok (.unchanged d), s)
  | .write d expected =>
    match b.write s mrn d expected with
    | (.ok record, s) => (.ok (.written d record), s)
    | (.error e, s) => (.error (.store e), s)

end Sync

/-- Derives the decision on a declaration and writes it unless it is stored already. -/
def sync {σ : Type} (b : Backend σ) (sets : RuleSets) (now : Timestamp) (mrn : String) (s : σ) :
    Except SyncError SyncOutcome × σ :=
  match Sync.fetch b mrn s with
  | .error e => (.error e, s)
  | .ok record =>
    match Sync.plan b sets now mrn record s with
    | .error e => (.error e, s)
    | .ok plan => Sync.carryOut b mrn plan s

end BorderControl
