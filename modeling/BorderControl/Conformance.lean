import BorderControl.Dossier
import BorderControl.Store.Backend

/-!
# Conformance of backends

A suite of tests that every backend should pass (`Conformance.run`). Each test opens a
fresh backend on a dossier of its own and says what went wrong, if anything. The first
tests are about fetching, the others about conditional writes.
-/

namespace BorderControl.Conformance

/-! ## Test data -/

def testMrn : String := "25GB0000000000001"

def unknownMrn : String := "25GB9999999999999"

/-- A decision with nothing but a marker. -/
def marked (version : String) : Decision := { Decision.blank with sourceVersion := some version }

/-- A declaration without items, with a stored decision if `prior` is its marker. -/
def declaration (prior : Option String) : Declaration where
  mrn := testMrn
  version := some 1
  finalisation := none
  commodities := []
  decision := prior.map marked

def notification (reference : String) : Notification where
  reference := reference
  certificate := .chedA
  version := some 1
  status := .validated
  partTwo := none
  lines := []
  updated := none

def dossier (prior : Option String) (notifications : List Notification) : Dossier :=
  ⟨[declaration prior], notifications⟩

/-! ## Wording -/

/-- A text in quotes. -/
def quoted (s : String) : String := "\"" ++ s ++ "\""

/-- An optional text, in quotes if it is there. -/
def optionText : Option String → String
  | none => "None"
  | some s => "Some(" ++ quoted s ++ ")"

def recordText (r : WriteRecord) : String :=
  "DecisionWriteRecord \x7b mrn: " ++ quoted r.mrn ++
    ", sequence: " ++ toString r.sequence ++
    ", previous_version: " ++ optionText r.previousVersion ++
    ", source_version: " ++ optionText r.sourceVersion ++ " \x7d"

/-! ## Tests -/

/-- What a test finds: nothing, or a text that says what went wrong. -/
abbrev Trial := Except String Unit

/-- A failure unless the condition holds. -/
def expect (condition : Bool) (message : String) : Trial :=
  if condition then .ok () else .error message

/-- An answer that must not be an error. -/
def answered {α : Type} (r : Except StoreError α) : Except String α :=
  r.mapError StoreError.message

section

variable {σ : Type} (b : Backend σ) (start : Dossier → σ)

def fetchReturnsSeeded : Trial := do
  let record ← answered (b.fetch (start (dossier none [])) testMrn)
  expect (record.declaration.mrn == testMrn)
    s!"expected mrn {testMrn}, got {record.declaration.mrn}"
  expect (record.decisionVersion.isNone && record.declaration.decision.isNone)
    "fresh declaration should carry no decision"

def fetchReportsVersion : Trial := do
  let record ← answered (b.fetch (start (dossier (some "v1") [])) testMrn)
  let found := optionText record.decisionVersion
  expect (record.decisionVersion == some "v1") s!"expected decision version v1, got {found}"

def fetchUnknown : Trial :=
  match b.fetch (start ⟨[], []⟩) unknownMrn with
  | .error (.notFound mrn) =>
    let message := (StoreError.notFound mrn).message
    expect (mrn == unknownMrn) s!"expected DeclarationNotFound, got {message}"
  | .error e => .error s!"expected DeclarationNotFound, got {e.message}"
  | .ok _ => .error "expected DeclarationNotFound, got a record"

def listReturnsLinked : Trial := do
  let linked := [notification "CHEDA.GB.2025.1234567", notification "CHEDA.GB.2025.7654321"]
  let found ← answered (b.list (start (dossier none linked)) testMrn)
  expect (found.length == 2) s!"expected 2 notifications, got {found.length}"

def listUnknown : Trial := do
  let found ← answered (b.list (start ⟨[], []⟩) unknownMrn)
  expect found.isEmpty s!"expected no notifications, got {found.length}"

def firstWrite : Trial := do
  let record ← answered (b.write (start (dossier none [])) testMrn (marked "v1") none).1
  expect (record.previousVersion.isNone && record.sourceVersion == some "v1")
    s!"unexpected write record {recordText record}"

def writeIsVisible : Trial := do
  let (written, s) := b.write (start (dossier none [])) testMrn (marked "v1") none
  let _ ← answered written
  let record ← answered (b.fetch s testMrn)
  let found := optionText record.decisionVersion
  expect (record.decisionVersion == some "v1") s!"expected v1 after write, got {found}"

def staleWrite : Trial :=
  match (b.write (start (dossier (some "v2") [])) testMrn (marked "v3") (some "v1")).1 with
  | .error (.conflict mrn expected actual) =>
    let fields := s!"mrn={mrn} expected={optionText expected} actual={optionText actual}"
    expect (mrn == testMrn && expected == some "v1" && actual == some "v2")
      s!"conflict fields wrong: {fields}"
  | .error e => .error s!"expected ConcurrentConflict, got {e.message}"
  | .ok record => .error s!"expected ConcurrentConflict, got write {recordText record}"

def conflictKeepsDecision : Trial := do
  let (_, s) := b.write (start (dossier (some "v2") [])) testMrn (marked "v3") none
  let record ← answered (b.fetch s testMrn)
  let found := optionText record.decisionVersion
  expect (record.decisionVersion == some "v2") s!"decision changed by rejected write: {found}"

def writesChain : Trial := do
  let (first, s) := b.write (start (dossier none [])) testMrn (marked "v1") none
  let first ← answered first
  let second ← answered (b.write s testMrn (marked "v2") (some "v1")).1
  expect (first.sequence < second.sequence)
    s!"write sequence did not advance: {first.sequence} then {second.sequence}"
  let found := optionText second.previousVersion
  expect (second.previousVersion == some "v1") s!"expected previous version v1, got {found}"

def writeUnknown : Trial :=
  match (b.write (start ⟨[], []⟩) unknownMrn (marked "v1") none).1 with
  | .error (.notFound _) => .ok ()
  | .error e => .error s!"expected DeclarationNotFound, got {e.message}"
  | .ok record => .error s!"expected DeclarationNotFound, got write {recordText record}"

end

/-! ## Reports -/

/-- A test that was run; the message says why it failed. -/
structure TestResult where
  category : String
  name : String
  message : Option String
deriving DecidableEq, Repr

def TestResult.passed (r : TestResult) : Bool := r.message.isNone

def TestResult.of (category name : String) (outcome : Trial) : TestResult where
  category := category
  name := name
  message := match outcome with
    | .ok _ => none
    | .error message => some message

abbrev Report := List TestResult

/-- All tests on a backend, which `start` opens on a dossier. -/
def run {σ : Type} (b : Backend σ) (start : Dossier → σ) : Report := [
  .of "fetch" "fetch_returns_seeded_declaration" (fetchReturnsSeeded b start),
  .of "fetch" "fetch_reports_stored_decision_version" (fetchReportsVersion b start),
  .of "fetch" "fetch_unknown_mrn_is_not_found" (fetchUnknown b start),
  .of "fetch" "list_notifications_returns_linked" (listReturnsLinked b start),
  .of "fetch" "list_notifications_empty_for_unknown_mrn" (listUnknown b start),
  .of "write" "first_write_expects_no_version" (firstWrite b start),
  .of "write" "write_is_visible_to_fetch" (writeIsVisible b start),
  .of "write" "stale_version_returns_conflict" (staleWrite b start),
  .of "write" "conflict_does_not_change_decision" (conflictKeepsDecision b start),
  .of "write" "sequential_writes_chain_versions" (writesChain b start),
  .of "write" "write_unknown_mrn_is_not_found" (writeUnknown b start)]

namespace Report

def total (r : Report) : Nat := r.length

def passed (r : Report) : Nat := r.countP TestResult.passed

def failed (r : Report) : Nat := r.total - r.passed

/-- A line with the numbers, and a line for every test that failed. -/
def text (r : Report) : String :=
  let failures := r.filterMap fun t => t.message.map fun message =>
    s!"  FAIL [{t.category}/{t.name}]: {message}\n"
  s!"Conformance: {r.passed}/{r.total} passed ({r.failed} failed)\n" ++ String.join failures

end Report

end BorderControl.Conformance
