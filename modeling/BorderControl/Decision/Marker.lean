import BorderControl.Form.Declaration
import BorderControl.Json.Printer
import BorderControl.Sha256

/-!
# Source markers

A decision is marked with a hash of everything it was derived from: the declaration
without its stored decision, the findings, and every notification that a finding is
linked to (`consulted`). The hash is taken of one compact JSON text with the members of
all objects in order (`Marker.text`).
-/

namespace BorderControl

namespace Marker

/-- The references that the findings are linked to, in order, each with the first
notification of that reference. -/
def consulted (notifications : List Notification) (findings : List Finding) :
    List (String × Option Notification) :=
  (distinct (fun a b : String => a ≤ b) (findings.filterMap (·.notificationReference))).map
    fun reference => (reference, notifications.find? (·.reference == reference))

def source (declaration : Declaration) (notifications : List Notification)
    (findings : List Finding) : Json :=
  .obj [
    ("mrn", toJson declaration.mrn),
    ("version", toJson declaration.version),
    ("finalisation", toJson declaration.finalisation),
    ("commodities", toJson declaration.commodities),
    ("notifications", .obj ((consulted notifications findings).map fun (r, n) => (r, toJson n))),
    ("outcomes", toJson findings)]

/-- The text that is hashed. -/
def text (declaration : Declaration) (notifications : List Notification)
    (findings : List Finding) : String :=
  (source declaration notifications findings).sortNames.compactText

end Marker

/-- The marker of a decision with these findings. -/
def marker (declaration : Declaration) (notifications : List Notification)
    (findings : List Finding) : String :=
  sha256Hex (Marker.text declaration notifications findings).toUTF8.toList

end BorderControl
