import BorderControl.Vocabulary

/-!
# Decision codes

The public answer to a check is a `DecisionCode`: `C` releases the goods, `E` releases
them to a controlled destination, `H` holds them, `N` refuses them, and `X00` says that
the check is unresolved. A `DetailCode` tells officials why; traders never see it.

Where several answers compete for one check, the one of highest `severity` counts.
-/

namespace BorderControl

inductive DecisionCode where
  | c02 | c03 | c05 | c06 | c07 | c08
  | e03
  | h01 | h02
  | n01 | n02 | n03 | n04 | n05 | n06 | n07
  | x00
deriving DecidableEq, Repr

namespace DecisionCode

def text : DecisionCode → String
  | c02 => "C02"
  | c03 => "C03"
  | c05 => "C05"
  | c06 => "C06"
  | c07 => "C07"
  | c08 => "C08"
  | e03 => "E03"
  | h01 => "H01"
  | h02 => "H02"
  | n01 => "N01"
  | n02 => "N02"
  | n03 => "N03"
  | n04 => "N04"
  | n05 => "N05"
  | n06 => "N06"
  | n07 => "N07"
  | x00 => "X00"

instance : Vocabulary DecisionCode where
  members := [c02, c03, c05, c06, c07, c08, e03, h01, h02, n01, n02, n03, n04, n05, n06, n07, x00]
  word := text

def isUnresolved (c : DecisionCode) : Bool := c == x00

/-- A refusal outranks an unresolved check, which outranks a hold, then a controlled
release, then a release. -/
def severity : DecisionCode → Nat
  | n01 | n02 | n03 | n04 | n05 | n06 | n07 => 4
  | x00 => 3
  | h01 | h02 => 2
  | e03 => 1
  | c02 | c03 | c05 | c06 | c07 | c08 => 0

end DecisionCode

inductive DetailCode where
  /-- No notification is linked to the check. -/
  | e70
  /-- The notification is cancelled. -/
  | e71
  /-- The notification is replaced by a newer one. -/
  | e72
  /-- The notification is deleted. -/
  | e73
  /-- The notification is split into several consignments. -/
  | e74
  /-- The check code belongs to no certificate family. -/
  | e75
  /-- The notification is of another family than the check. -/
  | e80
  /-- The declaration is finalised as cancelled or destroyed. -/
  | e82
  /-- The notification is being amended. -/
  | e84
  /-- The declared commodity code is not on the notification. -/
  | e85
  /-- The declared mass is too far from the notified weight. -/
  | e86
  /-- The illegal-fishing control is missing. -/
  | e87
  /-- The notification has no part two. -/
  | e88
  /-- No rule answered. -/
  | e99
deriving DecidableEq, Repr

namespace DetailCode

def text : DetailCode → String
  | e70 => "E70"
  | e71 => "E71"
  | e72 => "E72"
  | e73 => "E73"
  | e74 => "E74"
  | e75 => "E75"
  | e80 => "E80"
  | e82 => "E82"
  | e84 => "E84"
  | e85 => "E85"
  | e86 => "E86"
  | e87 => "E87"
  | e88 => "E88"
  | e99 => "E99"

instance : Vocabulary DetailCode where
  members := [e70, e71, e72, e73, e74, e75, e80, e82, e84, e85, e86, e87, e88, e99]
  word := text

end DetailCode

end BorderControl
