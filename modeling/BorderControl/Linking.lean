import BorderControl.CheckFamily
import BorderControl.Sorted

/-!
# Linking documents to notifications

The documents of a commodity are grouped by reference and code. A group that names a
certificate is linked to the first notification that stands for the same certificate, or
is left without one; other groups are passed over. `linkDocuments` reports both kinds,
declaration by declaration and item by item, within an item in the order of reference
and code.
-/

namespace BorderControl

/-- A group of documents that name a certificate. -/
structure DocumentGroup where
  mrn : String
  itemNumber : UInt32
  document : Document
deriving DecidableEq, Repr

structure LinkReport where
  /-- Linked groups, with the reference of the notification. -/
  linked : List (DocumentGroup × String)
  unlinked : List DocumentGroup
deriving DecidableEq, Repr

/-- The order of documents by reference, then code. -/
def Document.le (a b : Document) : Bool :=
  a.reference < b.reference || (a.reference == b.reference && a.code ≤ b.code)

namespace Commodity

/-- The documents of the commodity, once each and in order, that name a certificate. -/
def groups (mrn : String) (c : Commodity) : List (DocumentGroup × Identifier) :=
  (distinct Document.le c.documents).filterMap fun d =>
    d.identifier?.map fun i => (⟨mrn, c.itemNumber, d⟩, i)

end Commodity

/-- The first notification that stands for the certificate. -/
def firstNotification? (notifications : List Notification) (i : Identifier) :
    Option Notification :=
  notifications.find? fun n => n.identifier? == some i

def linkDocuments (notifications : List Notification) (declarations : List Declaration) :
    LinkReport :=
  let groups := declarations.flatMap fun d => d.commodities.flatMap (·.groups d.mrn)
  let found := groups.map fun (g, i) => (g, firstNotification? notifications i)
  { linked := found.filterMap fun (g, n) => n.map fun n => (g, n.reference)
    unlinked := found.filterMap fun (g, n) => if n.isNone then some g else none }

end BorderControl
