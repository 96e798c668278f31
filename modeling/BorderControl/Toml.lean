import BorderControl.Binary64

/-!
# TOML documents

A document is a tree of tables. How a table came about decides what may still be added
to it (`TableKind`): keys with dots add to tables that keys with dots made, headers add
to tables that headers passed through, and an inline table is complete as it stands.
`insert?` adds a key to a table, `openTable?` and `openElement?` follow a header; each
fails where the addition is not allowed.

A date or time is kept as `moment`, without its parts, as no setting is one.
-/

namespace BorderControl.Toml

/-- How a table came about: by a header of its own, on the way of a longer header, by a
key with dots, or inline. -/
inductive TableKind where
  | header
  | passed
  | dotted
  | inline
deriving DecidableEq, Repr

inductive Value where
  | str (s : String)
  | int (n : Int)
  /-- A number with a point or an exponent; nothing if it is not finite. -/
  | float (x : Option Binary64)
  | bool (b : Bool)
  | moment
  | arr (elements : List Value)
  | table (kind : TableKind) (entries : List (String × Value))
  /-- The tables under a header in double brackets. -/
  | tables (elements : List (List (String × Value)))
deriving Inhabited

abbrev Entries := List (String × Value)

namespace Entries

def get? (es : Entries) (key : String) : Option Value := (es.find? (·.1 == key)).map (·.2)

/-- Puts `v` under a key that is there already, or at the end. -/
def set (key : String) (v : Value) : Entries → Entries
  | [] => [(key, v)]
  | e :: rest => if e.1 = key then (key, v) :: rest else e :: set key v rest

/-- Applies `f` to the last member of a list; there must be one. -/
def updateLast? {α : Type} (f : α → Option α) : List α → Option (List α)
  | [] => none
  | [a] => (f a).map ([·])
  | a :: rest => (updateLast? f rest).map (a :: ·)

/-- Adds `v` under the key whose parts are `path` and `key`. The table that gets the
value must be the one the line belongs to, which is `here`, or one that dots made. -/
def insert? (here : Bool) (path : List String) (key : String) (v : Value) (es : Entries) :
    Option Entries :=
  match path with
  | [] => if here && (es.get? key).isNone then some (es ++ [(key, v)]) else none
  | part :: path =>
    match es.get? part with
    | none => do return es ++ [(part, .table .dotted (← insert? true path key v []))]
    | some (.table .dotted sub) => do
      return es.set part (.table .dotted (← insert? true path key v sub))
    | some (.table .passed sub) => do
      return es.set part (.table .passed (← insert? false path key v sub))
    | some (.tables elements) => do
      return es.set part (.tables (← updateLast? (insert? false path key v) elements))
    | some _ => none

/-- Applies `f` to the table at the end of a header's path. Tables on the way are made
where they are missing; of several tables under one name the last is meant. -/
def updateAt? (f : Entries → Option Entries) (path : List String) (es : Entries) :
    Option Entries :=
  match path with
  | [] => f es
  | part :: path =>
    match es.get? part with
    | none => do return es ++ [(part, .table .passed (← updateAt? f path []))]
    | some (.table .inline _) => none
    | some (.table kind sub) => do return es.set part (.table kind (← updateAt? f path sub))
    | some (.tables elements) => do
      return es.set part (.tables (← updateLast? (updateAt? f path) elements))
    | some _ => none

/-- Follows a header in single brackets: its table is new, or was only passed through. -/
def openTable? (path : List String) (key : String) : Entries → Option Entries :=
  updateAt? (fun es =>
    match es.get? key with
    | none => some (es ++ [(key, .table .header [])])
    | some (.table .passed sub) => some (es.set key (.table .header sub))
    | some _ => none) path

/-- Follows a header in double brackets, which adds a table to those under its name. -/
def openElement? (path : List String) (key : String) : Entries → Option Entries :=
  updateAt? (fun es =>
    match es.get? key with
    | none => some (es ++ [(key, .tables [[]])])
    | some (.tables elements) => some (es.set key (.tables (elements ++ [[]])))
    | some _ => none) path

end Entries

end BorderControl.Toml
