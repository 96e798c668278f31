import BorderControl.CommandLine.Arguments
import BorderControl.Form.Linking
import BorderControl.Dossier
import BorderControl.Json.Parser
import BorderControl.Settings
import BorderControl.Sync

/-!
# The command line

`CommandLine.run` answers a command line. It gets the time and a way to look up the text
of a file, and gives back an exit code, what goes to the two outputs, and the file it
wants to be saved, if any (`Run`). Only a sync with `--write` that wrote a decision saves
a file.

Settings are read first, then the files of the command. An error ends the run with exit
code 1 and a message on the error output; with `--quiet` both outputs stay empty. Two
decisions that differ give exit code 1 as well, and a misused command line 2.
-/

namespace BorderControl.CommandLine

/-- What a run leaves behind. -/
structure Run where
  exitCode : UInt32
  output : String
  errors : String
  /-- The path and the new text of a file. -/
  saved : Option (String × String)
deriving DecidableEq, Repr

/-- Looks up the text of a file, if it is there and is text. -/
abbrev Files := String → Option String

/-! ## Errors -/

inductive Error where
  | settingsUnreadable (path : String)
  | settingsMalformed (path : String)
  | fileNotFound (path : String)
  | invalidJson (path : String)
  | load (path : String) (e : LoadError)
  | derivation (e : DerivationError)
  | sync (e : SyncError)
  | saveFailed (path : String) (cause : String)
deriving DecidableEq, Repr

def Error.message : Error → String
  | settingsUnreadable path => s!"error: could not read '{path}'"
  | settingsMalformed path => s!"error: could not parse '{path}'"
  | fileNotFound path => s!"error: file not found: {path}"
  | invalidJson path => s!"error: invalid JSON in {path}"
  | load path e => s!"error: {path}: {e.message}"
  | derivation e => s!"error: {e.message}"
  | sync e => s!"error: {e.message}"
  | saveFailed path cause => s!"error: could not save {path}: {cause}"

/-- The run that ends with an error. -/
def failed (o : Options) (e : Error) : Run where
  exitCode := 1
  output := ""
  errors :=
    if o.quiet then ""
    else
      match o.format with
      | .text => e.message ++ "\n"
      | .json => (Json.obj [("error", .str e.message)]).compactText ++ "\n"
  saved := none

/-! ## Input -/

def readJson (files : Files) (path : String) : Except Error Json :=
  match files path with
  | none => .error (.fileNotFound path)
  | some text =>
    match Json.parse? text with
    | none => .error (.invalidJson path)
    | some j => .ok j

def readDossier (files : Files) (path : String) : Except Error Dossier := do
  (Dossier.load (← readJson files path)).mapError (.load path)

def readDecision (files : Files) (path : String) : Except Error Decision := do
  (Decision.load (← readJson files path)).mapError (.load path)

def readSettings (files : Files) : Option String → Except Error Settings
  | none => .ok .standard
  | some path =>
    match files path with
    | none => .error (.settingsUnreadable path)
    | some text =>
      match Settings.parse? text with
      | none => .error (.settingsMalformed path)
      | some settings => .ok settings

/-! ## Output -/

/-- Lines of text, each ended. -/
def lines (ls : List String) : String := String.join (ls.map (· ++ "\n"))

/-- A value on several lines, the members of objects in order. -/
def jsonText (j : Json) : String := j.sortNames.indentedText ++ "\n"

/-- A run with exit code 0 that prints a report in the format asked for. -/
def printed (o : Options) (text : List String) (json : Json) : Run where
  exitCode := 0
  output :=
    if o.quiet then ""
    else
      match o.format with
      | .text => lines text
      | .json => jsonText json
  errors := ""
  saved := none

def checkLines (c : CheckDecision) : List String :=
  let details := c.detailCodes.map DetailCode.text
  let suffix := if details = [] then "" else " [" ++ ", ".intercalate details ++ "]"
  ("    " ++ c.checkCode ++ " " ++ c.decisionCode.text ++ suffix) ::
    c.reasons.map ("      " ++ ·)

def itemLines (i : ItemDecision) : List String :=
  ("  item " ++ toString i.itemNumber.toNat) :: i.checks.flatMap checkLines

def decisionLines (mrn : String) (d : Decision) : List String :=
  mrn :: d.items.flatMap itemLines

def groupText (g : DocumentGroup) : String :=
  s!"{g.mrn} item {g.itemNumber.toNat} {g.document.code} {g.document.reference}"

def linkLines (r : LinkReport) : List String :=
  r.linked.map (fun (g, reference) => s!"match    {groupText g} -> {reference}") ++
  r.unlinked.map (fun g => s!"no match {groupText g}") ++
  [s!"{r.linked.length} matched, {r.unlinked.length} unmatched"]

def yesNo (b : Bool) : String := if b then "yes" else "no"

/-! ## Commands -/

def derive (files : Files) (now : Timestamp) (settings : Settings) (o : Options)
    (path : String) : Except Error Run := do
  let dossier ← readDossier files path
  let decisions ← (dossier.derive (.standard settings.rules) now).mapError Error.derivation
  return printed o (decisions.flatMap fun (mrn, d) => decisionLines mrn d)
    (.arr (decisions.map fun (mrn, d) => .obj [("mrn", .str mrn), ("decision", toJson d)]))

def link (files : Files) (o : Options) (path : String) : Except Error Run := do
  let dossier ← readDossier files path
  let report := linkDocuments dossier.notifications dossier.declarations
  return printed o (linkLines report) report.toJson

def compare (files : Files) (o : Options) (pathA pathB : String) : Except Error Run := do
  let a ← readDecision files pathA
  let b ← readDecision files pathB
  let same := a.sameAs b
  let exist := itemsExist (some a.items) (some b.items)
  let run := printed o [s!"same decision: {yesNo same}", s!"items exist:   {yesNo exist}"]
    (.obj [("same_decision", .bool same), ("items_exist", .bool exist)])
  return { run with exitCode := if same then 0 else 1 }

/-- The text of a store file. -/
def storeText (s : Store) : String := (toJson s.toDossier).indentedText ++ "\n"

def syncFile (files : Files) (now : Timestamp) (settings : Settings) (o : Options)
    (path mrn : String) (save : Bool) : Except Error Run := do
  let dossier ← readDossier files path
  let (result, store) :=
    sync Store.backend (.standard settings.rules) now mrn (Store.ofDossier dossier)
  let outcome ← result.mapError Error.sync
  let status := if outcome.wasWritten then "written" else "unchanged"
  let run := printed o (("decision " ++ status) :: decisionLines mrn outcome.decision)
    (.obj [
      ("mrn", .str mrn),
      ("written", .bool outcome.wasWritten),
      ("sequence", match outcome.record? with
        | some record => .int record.sequence
        | none => .null),
      ("decision", toJson outcome.decision)])
  return { run with
    saved := if save && outcome.wasWritten then some (path, storeText store) else none }

def execute (files : Files) (now : Timestamp) (o : Options) (c : Command) : Except Error Run := do
  let settings ← readSettings files o.settings
  match c with
  | .derive path => derive files now settings o path
  | .link path => link files o path
  | .compare a b => compare files o a b
  | .sync path mrn save => syncFile files now settings o path mrn save

/-! ## Runs -/

def versionText : String := "clearance 0.1.0\n"

def usageText : String := lines [
  "Usage: clearance [OPTIONS] COMMAND",
  "",
  "Commands:",
  "  derive CONTEXT            decide every declaration of a file",
  "  match CONTEXT             link declared documents to notifications",
  "  compare A B               compare two decisions",
  "  sync STORE MRN [--write]  bring a stored decision up to date",
  "",
  "Options:",
  "  --output text|json        the form of the output",
  "  --quiet                   no output",
  "  --config PATH             a file with settings",
  "  -h, --help                this text",
  "  -V, --version             the version"]

/-- Answers a command line at the time `now`. -/
def run (files : Files) (now : Timestamp) (args : List String) : Run :=
  match Invocation.ofArguments args with
  | .help => ⟨0, usageText, "", none⟩
  | .version => ⟨0, versionText, "", none⟩
  | .misuse => ⟨2, "", usageText, none⟩
  | .run o c =>
    match execute files now o c with
    | .ok r => r
    | .error e => failed o e

/-- The files that a run looks at. -/
def paths (args : List String) : List String :=
  match Invocation.ofArguments args with
  | .run o c =>
    o.settings.toList ++
      match c with
      | .derive path => [path]
      | .link path => [path]
      | .compare a b => [a, b]
      | .sync path _ _ => [path]
  | _ => []

/-- The run whose file could not be saved. -/
def saveFailure (args : List String) (path cause : String) : Run :=
  match Invocation.ofArguments args with
  | .run o _ => failed o (.saveFailed path cause)
  | _ => ⟨1, "", "", none⟩

end BorderControl.CommandLine
