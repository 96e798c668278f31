import BorderControl.Declaration
import BorderControl.Sorted

/-!
# The store of decisions

A `Store` holds declarations under their MRN, each with the notifications linked to it,
and a log of the decisions written. A write is conditional: it names the marker that its
writer found on the stored decision, and is refused if another one is stored by then
(`Store.write`). A refused write leaves no trace.

`Store.toDossier` is everything held, with each notification once; `Store.ofDossier`
links every notification to every declaration.
-/

namespace BorderControl

/-- Why the store does not answer. -/
inductive StoreError where
  | conflict (mrn : String) (expected actual : Option String)
  | notFound (mrn : String)
  | backend (text : String)
deriving DecidableEq, Repr

def StoreError.message : StoreError → String
  | conflict mrn expected actual =>
    let expected := expected.getD "<none>"
    let actual := actual.getD "<none>"
    s!"concurrent conflict on declaration {mrn}: expected decision version {expected}, " ++
      s!"found {actual}"
  | notFound mrn => s!"declaration not found: {mrn}"
  | backend text => s!"storage backend error: {text}"

/-- A declaration as it is fetched, with the marker of its stored decision. -/
structure DeclarationRecord where
  declaration : Declaration
  decisionVersion : Option String
deriving DecidableEq, Repr

/-- An accepted write and its place in the log, counted from one. -/
structure WriteRecord where
  mrn : String
  sequence : Nat
  previousVersion : Option String
  sourceVersion : Option String
deriving DecidableEq, Repr

/-- The marker of the stored decision. -/
def Declaration.marker? (d : Declaration) : Option String := d.decision.bind (·.sourceVersion)

/-- A declaration and the notifications linked to it. -/
structure Holding where
  declaration : Declaration
  notifications : List Notification
deriving DecidableEq, Repr

structure Store where
  holdings : Table Holding
  /-- Accepted writes, the oldest first. -/
  writes : List WriteRecord

namespace Store

def empty : Store := ⟨.empty, []⟩

/-- Holds the declaration with its notifications, in place of what was held under its
MRN. -/
def insert (s : Store) (d : Declaration) (notifications : List Notification) : Store :=
  { s with holdings := s.holdings.insert d.mrn ⟨d, notifications⟩ }

def fetch (s : Store) (mrn : String) : Except StoreError DeclarationRecord :=
  match s.holdings.get? mrn with
  | some h => .ok ⟨h.declaration, h.declaration.marker?⟩
  | none => .error (.notFound mrn)

/-- The notifications linked to a declaration; none to an unknown one. -/
def list (s : Store) (mrn : String) : List Notification :=
  match s.holdings.get? mrn with
  | some h => h.notifications
  | none => []

/-- Stores a decision if the marker of the one it replaces is `expected`. -/
def write (s : Store) (mrn : String) (d : Decision) (expected : Option String) :
    Except StoreError WriteRecord × Store :=
  match s.holdings.get? mrn with
  | none => (.error (.notFound mrn), s)
  | some h =>
    let actual := h.declaration.marker?
    if actual ≠ expected then (.error (.conflict mrn expected actual), s)
    else
      let record : WriteRecord := ⟨mrn, s.writes.length + 1, actual, d.sourceVersion⟩
      let declaration := { h.declaration with decision := some d }
      (.ok record,
        { holdings := s.holdings.insert mrn { h with declaration := declaration }
          writes := s.writes ++ [record] })

/-- The first notification of every reference, without the references in `seen`. -/
def firstByReference (seen : List String) : List Notification → List Notification
  | [] => []
  | n :: rest =>
    if n.reference ∈ seen then firstByReference seen rest
    else n :: firstByReference (n.reference :: seen) rest

def toDossier (s : Store) : Dossier where
  declarations := s.holdings.values.map (·.declaration)
  notifications := firstByReference [] (s.holdings.values.flatMap (·.notifications))

/-- A store of the dossier's declarations; of two with one MRN it holds the later. -/
def ofDossier (d : Dossier) : Store :=
  d.declarations.foldl (fun s declaration => s.insert declaration d.notifications) empty

end Store

end BorderControl
