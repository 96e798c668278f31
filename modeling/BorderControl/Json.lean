import BorderControl.Binary64
import BorderControl.Sorted

/-!
# JSON values

Whole numbers and doubles are told apart, as `1` and `1.0` are different values for
every reader here. An object keeps its members in the order they were written; of two
members with one name the later counts (`Json.lookup`).

`Json.sortNames` puts the members of all objects in the order of their names, which
makes the text of a value depend on its content alone.
-/

namespace BorderControl

inductive Json where
  | null
  | bool (b : Bool)
  | int (n : Int)
  | real (x : Binary64)
  | str (s : String)
  | arr (elements : List Json)
  | obj (members : List (String × Json))
deriving Inhabited

namespace Json

/-- The last member named `name`. -/
def lookup (name : String) : List (String × Json) → Option Json
  | [] => none
  | (n, v) :: rest => (lookup name rest).or (if n = name then some v else none)

/-- The member `name` of an object; other values have no members. -/
def member? (name : String) : Json → Option Json
  | .obj members => lookup name members
  | _ => none

mutual

/-- The value with the members of every object in the order of their names. -/
def sortNames : Json → Json
  | .arr elements => .arr (sortNamesList elements)
  | .obj members => .obj (sortBy (fun a b => a.1 ≤ b.1) (sortNamesMembers members))
  | j => j

def sortNamesList : List Json → List Json
  | [] => []
  | j :: rest => sortNames j :: sortNamesList rest

def sortNamesMembers : List (String × Json) → List (String × Json)
  | [] => []
  | (n, j) :: rest => (n, sortNames j) :: sortNamesMembers rest

end

end Json

end BorderControl
