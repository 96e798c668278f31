import BorderControl.RuleSets
import BorderControl.Toml.Parser

/-!
# Settings

Settings come from a TOML document with a table `rules` for the commodity rules and a
table `logging` for the level of the log. Whatever is left out has a default, and other
entries are ignored (`Settings.parse?`). A table may also be given as an array of its
entries in their order.
-/

namespace BorderControl

structure Settings where
  rules : RuleSettings
  logLevel : String
deriving DecidableEq, Repr

namespace Settings

def standard : Settings := ⟨.standard, "warn"⟩

/-- The entries given by a value: those of a table, or the elements of an array under
the names in their order. Further elements are ignored. A date or time counts as a table
with none of the entries. -/
def entries? (names : List String) : Toml.Value → Option Toml.Entries
  | .table _ es => some es
  | .arr elements => some (names.zip elements)
  | .tables elements => some (names.zip (elements.map (.table .header ·)))
  | .moment => some []
  | _ => none

/-- The entry `name` as `read?` understands it, or `default` where it is left out. -/
def entryOr {α : Type} (read? : Toml.Value → Option α) (default : α) (name : String)
    (es : Toml.Entries) : Option α :=
  match es.get? name with
  | none => some default
  | some v => read? v

def decimal? : Toml.Value → Option Decimal
  | .str s => Decimal.ofText? s
  | .int n => Decimal.ofInt? n
  | .float (some x) => Decimal.ofBinary64? x
  | _ => none

def bool? : Toml.Value → Option Bool
  | .bool b => some b
  | _ => none

def text? : Toml.Value → Option String
  | .str s => some s
  | _ => none

def rules? (v : Toml.Value) : Option RuleSettings := do
  let es ← entries? ["weight_tolerance_percent", "weight_validation"] v
  return {
    weightTolerance :=
      ← entryOr decimal? RuleSettings.standard.weightTolerance "weight_tolerance_percent" es
    weightValidation :=
      ← entryOr bool? RuleSettings.standard.weightValidation "weight_validation" es }

def logLevel? (v : Toml.Value) : Option String := do
  entryOr text? standard.logLevel "level" (← entries? ["level"] v)

/-- The settings in a document. -/
def parse? (s : String) : Option Settings := do
  let es ← Toml.parse? s
  return {
    rules := ← entryOr rules? standard.rules "rules" es
    logLevel := ← entryOr logLevel? standard.logLevel "logging" es }

end Settings

end BorderControl
