import BorderControl.Reason
import BorderControl.RuleSets

/-!
# Resolving a check

A check is resolved once for every pair of a document that counts for it and a
notification of the same certificate (`pairings`). A document without a notification is
resolved alone, and a check without a document with neither, so there is always a
finding. A document that is declared twice counts once.

`Check.findings` runs the chain of the check's family on every pair and then adds the
reasons, which look at all findings of the check. An orphan check gets no reasons.
-/

namespace BorderControl

/-- What a check is resolved against. -/
structure Pairing where
  notification : Option Notification
  document : Option Document

/-- The notifications of a certificate, in order. -/
def notificationsFor (notifications : List Notification) (i : Identifier) : List Notification :=
  notifications.filter fun n => n.identifier? == some i

/-- The pairs with one document. -/
def pairingsOf (notifications : List Notification) (d : Document) (i : Identifier) :
    List Pairing :=
  match notificationsFor notifications i with
  | [] => [⟨none, some d⟩]
  | n :: rest => (n :: rest).map fun n => ⟨some n, some d⟩

/-- The pairs with the documents of a list that count for the check and are not among
those already seen. -/
def pairingsFrom (notifications : List Notification) (checkCode : String) :
    List Document → List Document → List Pairing
  | _, [] => []
  | seen, d :: rest =>
    if d.qualifiesFor checkCode && d ∉ seen then
      match d.identifier? with
      | some i =>
        pairingsOf notifications d i ++ pairingsFrom notifications checkCode (d :: seen) rest
      | none => pairingsFrom notifications checkCode (d :: seen) rest
    else pairingsFrom notifications checkCode seen rest

def pairings (notifications : List Notification) (checkCode : String)
    (documents : List Document) : List Pairing :=
  match pairingsFrom notifications checkCode [] documents with
  | [] => [⟨none, none⟩]
  | p :: rest => p :: rest

/-- The finding for one pair, without reasons. -/
def findingFor (chain : Chain) (declaration : Declaration) (commodity : Commodity)
    (checkCode : String) (p : Pairing) : Finding :=
  let outcome := chain.resolve {
    declaration := declaration
    commodity := commodity
    checkCode := checkCode
    certificate := certificateForCheck? checkCode
    notification := p.notification
    document := p.document }
  { mrn := declaration.mrn
    itemNumber := commodity.itemNumber
    documentReference := p.document.map (·.reference)
    documentCode := p.document.map (·.code)
    checkCode := checkCode
    notificationReference := p.notification.map (·.reference)
    decisionCode := outcome.decisionCode
    detailCode := outcome.detailCode
    reasons := [] }

/-- The findings of a check on a commodity. -/
def Check.findings (check : Check) (sets : RuleSets) (declaration : Declaration)
    (notifications : List Notification) (commodity : Commodity) :
    Except DerivationError (List Finding) := do
  let certificate := certificateForCheck? check.code
  let chain ← sets.select certificate
  let findings := (pairings notifications check.code commodity.documents).map
    (findingFor chain declaration commodity check.code)
  if certificate.isNone then return findings
  else
    findings.mapM fun f => do
      return { f with reasons := ← reasonsFor commodity f findings }

end BorderControl
