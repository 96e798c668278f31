import BorderControl.Rule

/-!
# Chains of rules

A case is resolved by the first rule of a chain that answers it (`resolve`); if none
does, the outcome is unknown. A rule that grants a release has the rules behind it look
at the case first, and their outcome takes the place of the release unless it is unknown.

`entered` lists the rules that got to see the case.
-/

namespace BorderControl

abbrev Chain := List Rule

namespace Chain

def resolve : Chain → Case → Outcome
  | [], _ => .unknown
  | r :: rest, c =>
    match r.step c with
    | .answer o => o
    | .defer => resolve rest c
    | .unlessVetoed o =>
      let later := resolve rest c
      if later = .unknown then o else later

/-- The rules that see the case, in order. -/
def entered : Chain → Case → List Rule
  | [], _ => []
  | r :: rest, c =>
    match r.step c with
    | .answer _ => [r]
    | .defer => r :: entered rest c
    | .unlessVetoed _ => r :: entered rest c

end Chain

end BorderControl
