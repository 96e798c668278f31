import BorderControl.Store

/-!
# Backends

A `Backend` is anything that answers like a store: it fetches declarations, lists the
notifications linked to them, and writes decisions, going from state to state.
`Store.backend` is the store itself. The other backends here put something between a
sync and its store: a rival who writes first (`Backend.withRival`), or a failure of the
medium (`Backend.withFailingWrites`).
-/

namespace BorderControl

structure Backend (σ : Type) where
  fetch : σ → String → Except StoreError DeclarationRecord
  list : σ → String → Except StoreError (List Notification)
  write : σ → String → Decision → Option String → Except StoreError WriteRecord × σ

def Store.backend : Backend Store where
  fetch := Store.fetch
  list s mrn := .ok (s.list mrn)
  write := Store.write

namespace Backend

variable {σ : Type}

/-- The marker of the decision stored at this moment. -/
def currentVersion (b : Backend σ) (s : σ) (mrn : String) : Option String :=
  match b.fetch s mrn with
  | .ok record => record.decisionVersion
  | .error _ => none

/-- Just before a write another writer stores `rival`, knowing the current marker. -/
def withRival (b : Backend σ) (rival : Decision) : Backend σ :=
  { b with write := fun s mrn d expected =>
      let (_, s) := b.write s mrn rival (b.currentVersion s mrn)
      b.write s mrn d expected }

/-- Every write fails with the text of the medium. -/
def withFailingWrites (b : Backend σ) (text : String) : Backend σ :=
  { b with write := fun s _ _ _ => (.error (.backend text), s) }

end Backend

end BorderControl
