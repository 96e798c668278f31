import BorderControl.Text
import BorderControl.Vocabulary

/-!
# Health certificates

A consignment that needs a health check at the border carries a certificate of one of
four families: live animals (CHED-A), products of animal origin (CHED-P), plants
(CHED-PP), and high-risk food and feed not of animal origin (CHED-D). Every check and
every pre-notification belongs to one of them.
-/

namespace BorderControl

inductive Certificate where
  | chedA
  | chedP
  | chedPP
  | chedD
deriving DecidableEq, Repr

namespace Certificate

/-- The code that notifications carry. -/
def code : Certificate → String
  | chedA => "CVEDA"
  | chedP => "CVEDP"
  | chedPP => "CHEDPP"
  | chedD => "CED"

/-- The name that traders know. -/
def displayName : Certificate → String
  | chedA => "CHED-A"
  | chedP => "CHED-P"
  | chedPP => "CHED-PP"
  | chedD => "CHED-D"

/-- What the numbers of the family's notifications begin with. -/
def notificationPrefix : Certificate → String
  | chedA => "CHEDA.GB"
  | chedP => "CHEDP.GB"
  | chedPP => "CHEDPP.GB"
  | chedD => "CHEDD.GB"

instance : Vocabulary Certificate where
  members := [chedA, chedP, chedPP, chedD]
  word := code

/-- The family whose code is `s`, up to case and blank ends. -/
def ofText? (s : String) : Option Certificate :=
  Vocabulary.members.find? fun c : Certificate => Text.sameLetters c.code (Text.trim s)

/-- What to say of a text that is no family's code. -/
def unknownMessage (s : String) : String := s!"unknown certificate type '{s}'"

end Certificate

end BorderControl
