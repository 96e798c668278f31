import BorderControl.Json
import BorderControl.Timestamp
import BorderControl.Vocabulary

/-!
# Data as JSON

`JsonForm` says how the values of a type are written as JSON and what they are read
from. A record is written as an object with a member per field. It is read from such an
object, whatever further members it has, or from an array that gives the fields by
position (`Json.record?`); either way a field may be left out if it has a default
(`field`, `fieldOr`).

A word of a vocabulary is read from a string or from an object whose one member it
names, with nothing in it. An optional value is null where it is absent.
-/

namespace BorderControl

class JsonForm (α : Type) where
  toJson : α → Json
  ofJson? : Json → Option α

export JsonForm (toJson ofJson?)

instance : JsonForm String where
  toJson := .str
  ofJson?
    | .str s => some s
    | _ => none

instance : JsonForm Bool where
  toJson := .bool
  ofJson?
    | .bool b => some b
    | _ => none

instance : JsonForm UInt32 where
  toJson n := .int n.toNat
  ofJson?
    | .int n => if 0 ≤ n ∧ n < UInt32.size then some (UInt32.ofNat n.toNat) else none
    | _ => none

instance : JsonForm Decimal where
  toJson d := .str d.text
  ofJson?
    | .str s => Decimal.ofText? s
    | .int n => Decimal.ofInt? n
    | .real x => Decimal.ofBinary64? x
    | _ => none

instance : JsonForm Timestamp where
  toJson t := .str t.text
  ofJson?
    | .str s => Timestamp.ofText? s
    | _ => none

/-- The name of an object's one member, if that member is null. A name that is written
several times is still one member. -/
def Json.bareName? : Json → Option String
  | .obj ((name, j) :: rest) =>
    match lookup name ((name, j) :: rest) with
    | some .null => if rest.all (·.1 == name) then some name else none
    | _ => none
  | _ => none

instance (priority := low) {α : Type} [Vocabulary α] : JsonForm α where
  toJson a := .str (Vocabulary.word a)
  ofJson?
    | .str s => Vocabulary.ofWord? s
    | j => j.bareName?.bind Vocabulary.ofWord?

instance {α : Type} [JsonForm α] : JsonForm (Option α) where
  toJson
    | none => .null
    | some a => toJson a
  ofJson?
    | .null => some none
    | j => (ofJson? j).map some

instance {α : Type} [JsonForm α] : JsonForm (List α) where
  toJson as := .arr (as.map toJson)
  ofJson?
    | .arr js => js.mapM ofJson?
    | _ => none

namespace Json

/-- The fields given by a value: its members, or the elements of an array under the
names of the fields in their order. An array has no more elements than there are
fields. -/
def record? (fields : List String) : Json → Option (List (String × Json))
  | .obj members => some members
  | .arr elements => if elements.length ≤ fields.length then some (fields.zip elements) else none
  | _ => none

/-- The field `name`, which must be there. -/
def field {α : Type} [JsonForm α] (name : String) (members : List (String × Json)) : Option α :=
  (lookup name members).bind ofJson?

/-- The field `name`, or `default` where it is left out. -/
def fieldOr {α : Type} [JsonForm α] (default : α) (name : String)
    (members : List (String × Json)) : Option α :=
  match lookup name members with
  | none => some default
  | some j => ofJson? j

end Json

end BorderControl
