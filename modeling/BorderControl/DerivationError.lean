import BorderControl.Certificate

/-!
# Errors of a derivation

Malformed evidence is no error; it counts as absent. An error means that rules and data do
not fit together.
-/

namespace BorderControl

/-- Why a check has no outcome. -/
inductive DerivationError where
  | missingRuleSet (c : Certificate)
  | checkCodeOutOfRange (checkCode : String)
deriving DecidableEq, Repr

def DerivationError.message : DerivationError → String
  | missingRuleSet c => s!"no rule set configured for certificate type {c.code}"
  | checkCodeOutOfRange code => s!"check code '{code}' is out of range: no certificate type"

end BorderControl
