import BorderControl.Proofs.Coverage
import BorderControl.Proofs.StoreFile
import BorderControl.Proofs.Utf8

/-!
# What a run changes

A run is carried out on a disk (`Disk.perform`): the files that the command line names are read,
the command line is answered, and the file that its run saves is written, if the disk lets it. A
write that is let in is carried out in full.

The flags of the output, its format and `--quiet`, decide what is printed and nothing else.
Without them a command line is read as the same command with the same settings
(`Arguments.beforeVerb_bare`), and the exit code and the saved file of a run are those of the
command and the settings (`CommandLine.effect_run`). The time of a run is found in the saved
file, where the decision it writes is stamped with it, and nowhere else
(`CommandLine.effect_cases`).

A file changes in one way: a sync with `--write` that wrote a decision puts the text of the
store in place of its store file (`CommandLine.Writes`). Any other run leaves the disk as it is,
and so does a run with an exit code other than 0 (`Disk.effects`).
-/

namespace BorderControl

/-! ## Command lines without flags -/

/-- The options, with those of the output left out. -/
def Options.bare (o : Options) : Options := { o with format := .text, quiet := false }

def Invocation.bare : Invocation → Invocation
  | .run o c => .run o.bare c
  | .help => .help
  | .version => .version
  | .misuse => .misuse

namespace Arguments

/-- The token says how to print, and no more. -/
def Token.isFlag : Token → Bool
  | .format _ | .quiet => true
  | _ => false

/-- The command line without its flags: what is left of its tokens, in their order. -/
def unflagged (args : List String) : List Token := (tokens args).filter (!·.isFlag)

def Flags.bare (flags : Flags) : Flags := { flags with format := .none, quiet := false }

/-- Takes in an option that belongs to every command, and reads on. -/
def takeIn (read : Flags → List Token → Invocation) (flags : Flags) (token : Token)
    (toks : List Token) : Invocation :=
  match shared? flags token with
  | some flags => read flags toks
  | none => .misuse

/-- A flag leaves the rest of the options as they are. -/
theorem bare_of_isFlag {token : Token} (hflag : token.isFlag = true) {flags flags' : Flags}
    (h : shared? flags token = some flags') : flags'.bare = flags.bare := by
  cases token with
  | format f =>
    obtain ⟨-, rfl⟩ : flags.format = .none ∧ _ := by simpa [shared?] using h
    rfl
  | quiet =>
    obtain ⟨-, rfl⟩ : flags.quiet = false ∧ _ := by simpa [shared?] using h
    rfl
  | _ => cases hflag

/-- Any other option is taken in whatever flags there are. -/
theorem shared?_bare {token : Token} (hflag : token.isFlag = false) {flags flags' : Flags}
    (h : shared? flags token = some flags') : shared? flags.bare token = some flags'.bare := by
  cases token with
  | settings path =>
    obtain ⟨hnone, rfl⟩ : flags.settings = .none ∧ _ := by simpa [shared?] using h
    simp [shared?, Flags.bare, hnone]
  | format | quiet => cases hflag
  | _ => cases h

/-- An option of every command can be left out if it is a flag, when what follows can be read
without its flags. -/
theorem takeIn_bare (read readBare : Flags → List Token → Invocation) {flags : Flags}
    {token : Token} {toks : List Token}
    (hstep : ∀ flags toks, readBare flags (token :: toks) = takeIn readBare flags token toks)
    (hrest : ∀ flags, read flags toks ≠ .misuse →
      readBare flags.bare (toks.filter (!·.isFlag)) = (read flags toks).bare)
    (h : takeIn read flags token toks ≠ .misuse) :
    readBare flags.bare ((token :: toks).filter (!·.isFlag)) =
      (takeIn read flags token toks).bare := by
  cases hshared : shared? flags token with
  | none => exact absurd (by rw [takeIn, hshared]) h
  | some flags' =>
    simp only [takeIn, hshared] at h ⊢
    cases hflag : token.isFlag with
    | true =>
      rw [List.filter_cons_of_neg (by simp [hflag]), ← bare_of_isFlag hflag hshared]
      exact hrest flags' h
    | false =>
      rw [List.filter_cons_of_pos (by simp [hflag]), hstep, takeIn, shared?_bare hflag hshared]
      exact hrest flags' h

/-- What follows the name of a command reads the same without the flags. -/
theorem afterVerb_bare (v : Verb) (outer : Flags) :
    ∀ (toks : List Token) (inner : Flags) (operands : List String),
      afterVerb v outer inner operands toks ≠ .misuse →
        afterVerb v outer.bare inner.bare operands (toks.filter (!·.isFlag)) =
          (afterVerb v outer inner operands toks).bare
  | [], inner, operands, _ => by
    have hsave : inner.bare.save = inner.save := rfl
    simp only [List.filter_nil, afterVerb, hsave]
    split <;> rfl
  | token :: toks, inner, operands, h => by
    cases token with
    | operand s =>
      rw [List.filter_cons_of_pos rfl]
      simp only [afterVerb] at h ⊢
      split
      · next hallows => exact afterVerb_bare v outer toks inner _ (by simpa [hallows] using h)
      · rfl
    | separator => exact afterVerb_bare v outer toks inner operands h
    | help => rfl
    | save =>
      have hsave : inner.bare.save = inner.save := rfl
      rw [List.filter_cons_of_pos rfl]
      simp only [afterVerb, hsave] at h ⊢
      split
      · next hallows =>
        exact afterVerb_bare v outer toks { inner with save := true } operands
          (by simpa only [hallows, if_true] using h)
      · rfl
    | format | settings | quiet =>
      exact takeIn_bare (afterVerb v outer · operands) (afterVerb v outer.bare · operands)
        (fun _ _ => rfl) (fun inner => afterVerb_bare v outer toks inner operands) h
    | version | meaningless => exact absurd rfl h

theorem helpOn_bare {toks : List Token} (h : helpOn toks ≠ .misuse) :
    helpOn (toks.filter (!·.isFlag)) = (helpOn toks).bare := by
  unfold helpOn at h
  split at h
  · rfl
  · next name =>
    rw [List.filter_cons_of_pos rfl, List.filter_nil, helpOn]
    split <;> rfl
  · exact absurd rfl h

/-- A command line that is no misuse reads the same without the flags. -/
theorem beforeVerb_bare : ∀ (toks : List Token) (outer : Flags),
    beforeVerb outer toks ≠ .misuse →
      beforeVerb outer.bare (toks.filter (!·.isFlag)) = (beforeVerb outer toks).bare
  | [], _, h => absurd rfl h
  | token :: toks, outer, h => by
    cases token with
    | operand s =>
      rw [List.filter_cons_of_pos rfl]
      simp only [beforeVerb] at h ⊢
      split
      · next v hv => exact afterVerb_bare v outer toks .none [] (by simpa only [hv] using h)
      · next hnone =>
        simp only [hnone] at h
        split
        · next hs => exact helpOn_bare (by simpa only [if_pos hs] using h)
        · rfl
    | help | version => rfl
    | format | settings | quiet =>
      exact takeIn_bare beforeVerb beforeVerb (fun _ _ => rfl)
        (fun outer => beforeVerb_bare toks outer) h
    | separator | save | meaningless => exact absurd rfl h

end Arguments

/-- Two accepted command lines that differ in flags only ask for the same with the same
settings. -/
theorem Invocation.bare_ofArguments {args args' : List String}
    (h : ofArguments args ≠ .misuse) (h' : ofArguments args' ≠ .misuse)
    (hflags : Arguments.unflagged args = Arguments.unflagged args') :
    (ofArguments args).bare = (ofArguments args').bare := by
  have hbare := Arguments.beforeVerb_bare _ _ h
  rw [show (Arguments.tokens args).filter (!·.isFlag) = Arguments.unflagged args' from hflags]
    at hbare
  exact hbare.symm.trans (Arguments.beforeVerb_bare _ _ h')

namespace CommandLine

/-! ## What a command does, printing apart -/

/-- The exit code of a run, and the file it saves. -/
structure Effect where
  exitCode : UInt32
  saved : Option (String × String)

def Run.effect (r : Run) : Effect := ⟨r.exitCode, r.saved⟩

/-- What is done once the settings are read. -/
def effectUnder (files : Files) (now : Timestamp) (settings : Settings) : Command → Effect
  | .derive path | .link path =>
    match readDossier files path with
    | .error _ => ⟨1, none⟩
    | .ok _ => ⟨0, none⟩
  | .compare pathA pathB =>
    match readDecision files pathA, readDecision files pathB with
    | .ok a, .ok b => ⟨if a.sameAs b then 0 else 1, none⟩
    | _, _ => ⟨1, none⟩
  | .sync path mrn save =>
    match readDossier files path with
    | .error _ => ⟨1, none⟩
    | .ok dossier =>
      match sync Store.backend (.standard settings.rules) now mrn (.ofDossier dossier) with
      | (.error _, _) => ⟨1, none⟩
      | (.ok outcome, store) =>
        ⟨0, if save && outcome.wasWritten then some (path, storeText store) else none⟩

/-- The options of an invocation have a part in this through the settings alone. -/
def effectOf (files : Files) (now : Timestamp) : Invocation → Effect
  | .help | .version => ⟨0, none⟩
  | .misuse => ⟨2, none⟩
  | .run o c =>
    match readSettings files o.settings with
    | .error _ => ⟨1, none⟩
    | .ok settings => effectUnder files now settings c

variable {files : Files} {now : Timestamp}

theorem effectOf_bare (i : Invocation) : effectOf files now i.bare = effectOf files now i := by
  cases i <;> rfl

/-- The run that a command comes to. -/
def concluded (o : Options) : Except Error Run → Run
  | .ok r => r
  | .error e => failed o e

theorem effect_derive (settings : Settings) (o : Options) (path : String) :
    (concluded o (derive files now settings o path)).effect =
      effectUnder files now settings (.derive path) := by
  simp only [derive, effectUnder]
  cases readDossier files path with
  | error e => rfl
  | ok dossier =>
    simp only [dossier.derive_standard settings.rules now, bind, Except.bind, Except.mapError]
    rfl

theorem effect_link (settings : Settings) (o : Options) (path : String) :
    (concluded o (link files o path)).effect = effectUnder files now settings (.link path) := by
  simp only [link, effectUnder]
  cases readDossier files path <;> rfl

theorem effect_compare (settings : Settings) (o : Options) (pathA pathB : String) :
    (concluded o (compare files o pathA pathB)).effect =
      effectUnder files now settings (.compare pathA pathB) := by
  simp only [compare, effectUnder]
  cases readDecision files pathA with
  | error e => rfl
  | ok a => cases readDecision files pathB <;> rfl

theorem effect_syncFile (settings : Settings) (o : Options) (path mrn : String) (save : Bool) :
    (concluded o (syncFile files now settings o path mrn save)).effect =
      effectUnder files now settings (.sync path mrn save) := by
  simp only [syncFile, effectUnder]
  cases readDossier files path with
  | error e => rfl
  | ok dossier =>
    simp only [bind, Except.bind]
    rcases sync Store.backend (.standard settings.rules) now mrn (.ofDossier dossier) with
      ⟨e | outcome, store⟩ <;> rfl

theorem effect_execute (o : Options) (c : Command) :
    (concluded o (execute files now o c)).effect = effectOf files now (.run o c) := by
  simp only [execute, effectOf]
  cases readSettings files o.settings with
  | error e => rfl
  | ok settings =>
    cases c with
    | derive path => exact effect_derive settings o path
    | link path => exact effect_link settings o path
    | compare a b => exact effect_compare settings o a b
    | sync path mrn save => exact effect_syncFile settings o path mrn save

/-- A run does what its invocation says, whatever it prints. -/
theorem effect_run (args : List String) :
    (run files now args).effect = effectOf files now (.ofArguments args) := by
  unfold run
  cases Invocation.ofArguments args with
  | run o c => exact effect_execute o c
  | help | version | misuse => rfl

/-! ## The time of a run -/

/-- The invocation is a sync with `--write` that writes a decision, and leaves the store. -/
def Writes (files : Files) (now : Timestamp) (i : Invocation) (path : String) (store : Store) :
    Prop :=
  ∃ o mrn settings dossier decision record, i = .run o (.sync path mrn true) ∧
    readSettings files o.settings = .ok settings ∧ readDossier files path = .ok dossier ∧
    sync Store.backend (.standard settings.rules) now mrn (.ofDossier dossier) =
      (.ok (.written decision record), store)

theorem effectOf_of_writes {i : Invocation} {path : String} {store : Store}
    (h : Writes files now i path store) :
    effectOf files now i = ⟨0, some (path, storeText store)⟩ := by
  obtain ⟨o, mrn, settings, dossier, decision, record, rfl, hsettings, hread, hsync⟩ := h
  simp only [effectOf, effectUnder, hsettings, hread, hsync]
  rfl

/-- The flags have no part in a write. -/
theorem writes_of_bare {i i' : Invocation} (hbare : i.bare = i'.bare) {path : String}
    {store : Store} (h : Writes files now i path store) : Writes files now i' path store := by
  obtain ⟨o, mrn, settings, dossier, decision, record, rfl, hsettings, hread, hsync⟩ := h
  cases i' with
  | help | version | misuse => cases hbare
  | run o' c' =>
    obtain ⟨ho, rfl⟩ := Invocation.run.inj hbare
    have hpath : o'.bare.settings = o.bare.settings := congrArg Options.settings ho.symm
    exact ⟨o', mrn, settings, dossier, decision, record, rfl,
      (congrArg (readSettings files) hpath).trans hsettings, hread, hsync⟩

/-- Whether a sync writes, and what but for its time, is settled before the clock is read. -/
theorem sync_at_any_time (dossier : Dossier) (mrn : String) (s : RuleSettings) :
    (∀ now, ∃ e store, sync Store.backend (.standard s) now mrn (.ofDossier dossier) =
        (.error e, store)) ∨
      (∀ now, ∃ d store, sync Store.backend (.standard s) now mrn (.ofDossier dossier) =
        (.ok (.unchanged d), store)) ∨
      ∃ decision : Decision, ∀ now, ∃ record store,
        sync Store.backend (.standard s) now mrn (.ofDossier dossier) =
          (.ok (.written (decision.at now) record), store) ∧
        store.toDossier = dossier.afterWrite mrn (decision.at now) := by
  cases hheld : dossier.held? mrn with
  | none =>
    refine Or.inl fun now => ⟨.store (.notFound mrn), .ofDossier dossier, ?_⟩
    simp only [sync, Sync.fetch, Store.backend, Store.fetch, Store.get?_ofDossier, hheld]
    rfl
  | some d =>
    -- The decision of any time is that of the epoch with its own time written down.
    have hat (now : Timestamp) : d.standardDecision s now dossier.notifications =
        (d.standardDecision s .epoch dossier.notifications).at now := rfl
    have hsettled (now : Timestamp) :
        d.IsSettled (d.standardDecision s now dossier.notifications) ↔
          d.IsSettled (d.standardDecision s .epoch dossier.notifications) := Iff.rfl
    by_cases hset : d.IsSettled (d.standardDecision s .epoch dossier.notifications)
    · refine Or.inr (Or.inl fun now => ?_)
      rcases @sync_ofDossier dossier mrn d s now hheld with ⟨-, hsync⟩ | ⟨hnew, -⟩
      · exact ⟨_, _, hsync⟩
      · exact absurd ((hsettled now).mpr hset) hnew
    · refine Or.inr (Or.inr ⟨d.standardDecision s .epoch dossier.notifications, fun now => ?_⟩)
      rw [← hat now]
      rcases @sync_ofDossier dossier mrn d s now hheld with ⟨hset', -⟩ | ⟨-, hwrites⟩
      · exact absurd ((hsettled now).mp hset') hset
      · exact hwrites

theorem effect_sync_cases {o : Options} {settings : Settings}
    (hsettings : readSettings files o.settings = .ok settings) (path mrn : String) (save : Bool) :
    (∃ code, ∀ now, effectUnder files now settings (.sync path mrn save) = ⟨code, none⟩) ∨
      ∃ dossier : Dossier, ∃ decision : Decision, ∀ now, ∃ store,
        Writes files now (.run o (.sync path mrn save)) path store ∧
        store.toDossier = dossier.afterWrite mrn (decision.at now) := by
  simp only [effectUnder]
  cases hread : readDossier files path with
  | error e => exact Or.inl ⟨1, fun _ => rfl⟩
  | ok dossier =>
    rcases sync_at_any_time dossier mrn settings.rules with hsync | hsync | ⟨decision, hsync⟩
    · refine Or.inl ⟨1, fun now => ?_⟩
      obtain ⟨e, store, hsync⟩ := hsync now
      simp only [hsync]
    · refine Or.inl ⟨0, fun now => ?_⟩
      obtain ⟨d, store, hsync⟩ := hsync now
      simp [hsync, SyncOutcome.wasWritten, SyncOutcome.record?]
    · cases save with
      | false =>
        refine Or.inl ⟨0, fun now => ?_⟩
        obtain ⟨record, store, hsync, -⟩ := hsync now
        simp [hsync]
      | true =>
        refine Or.inr ⟨dossier, decision, fun now => ?_⟩
        obtain ⟨record, store, hsync, hstore⟩ := hsync now
        exact ⟨store, ⟨o, mrn, settings, dossier, _, record, rfl, hsettings, hread, hsync⟩,
          hstore⟩

/-- A run saves nothing and ends with one exit code at any time, or it is a sync that writes at
any time, and what the store holds then differs in the time of the decision. -/
theorem effect_cases (files : Files) (i : Invocation) :
    (∃ code, ∀ now, effectOf files now i = ⟨code, none⟩) ∨
      ∃ path mrn, ∃ dossier : Dossier, ∃ decision : Decision, ∀ now, ∃ store,
        Writes files now i path store ∧
        store.toDossier = dossier.afterWrite mrn (decision.at now) := by
  cases i with
  | help | version => exact Or.inl ⟨0, fun _ => rfl⟩
  | misuse => exact Or.inl ⟨2, fun _ => rfl⟩
  | run o c =>
    cases hsettings : readSettings files o.settings with
    | error e => exact Or.inl ⟨1, fun now => by simp only [effectOf, hsettings]⟩
    | ok settings =>
      simp only [effectOf, hsettings]
      cases c with
      | derive path | link path =>
        simp only [effectUnder]
        cases readDossier files path <;> exact Or.inl ⟨_, fun _ => rfl⟩
      | compare pathA pathB =>
        simp only [effectUnder]
        cases readDecision files pathA with
        | error e => exact Or.inl ⟨_, fun _ => rfl⟩
        | ok a => cases readDecision files pathB <;> exact Or.inl ⟨_, fun _ => rfl⟩
      | sync path mrn save =>
        exact (effect_sync_cases hsettings path mrn save).imp_right fun h => ⟨path, mrn, h⟩

/-! ## What a run looks at -/

section Paths

variable {files' : Files}

theorem readJson_congr {path : String} (h : files path = files' path) :
    readJson files path = readJson files' path := by
  rw [readJson, readJson, h]

theorem readDossier_congr {path : String} (h : files path = files' path) :
    readDossier files path = readDossier files' path := by
  rw [readDossier, readDossier, readJson_congr h]

theorem readDecision_congr {path : String} (h : files path = files' path) :
    readDecision files path = readDecision files' path := by
  rw [readDecision, readDecision, readJson_congr h]

theorem readSettings_congr : ∀ {path? : Option String},
    (∀ path ∈ path?.toList, files path = files' path) →
      readSettings files path? = readSettings files' path?
  | none, _ => rfl
  | some path, h => by rw [readSettings, readSettings, h path (List.mem_singleton_self path)]

/-- A run depends on the files it names. -/
theorem run_congr {args : List String} (h : ∀ path ∈ paths args, files path = files' path) :
    run files now args = run files' now args := by
  unfold paths at h
  unfold run
  cases hargs : Invocation.ofArguments args with
  | help | version | misuse => rfl
  | run o c =>
    simp only [hargs, List.forall_mem_append] at h
    obtain ⟨hsettings, hcommand⟩ := h
    have hexecute : execute files now o c = execute files' now o c := by
      rw [execute, execute, readSettings_congr hsettings]
      cases c with
      | derive path => simp only [derive, readDossier_congr (hcommand path (by simp))]
      | link path => simp only [link, readDossier_congr (hcommand path (by simp))]
      | compare a b =>
        simp only [compare, readDecision_congr (hcommand a (by simp)),
          readDecision_congr (hcommand b (by simp))]
      | sync path mrn save => simp only [syncFile, readDossier_congr (hcommand path (by simp))]
    simp only [hexecute]

end Paths

end CommandLine

/-! ## Runs on a disk -/

/-- A disk. Paths lead to files, several of them perhaps to one. A file is read as the bytes it
has, if it is there and can be read. -/
structure Disk where
  /-- The file that a path leads to, by its number. -/
  file : String → Nat
  bytes : Nat → Option ByteArray
  /-- Why the file at a path may not be written; nothing if it may. -/
  refusal : String → Option String

namespace Disk

open CommandLine

/-- The text of a file with the dossier, as a store file is written. -/
def dossierText (dossier : Dossier) : String := (toJson dossier).indentedText ++ "\n"

/-- The texts on the disk: a file that is not UTF-8 is no text. -/
def texts (disk : Disk) : Files := fun path =>
  (disk.bytes (disk.file path)).bind String.fromUTF8?

/-- Writes a text over the file at a path. -/
def put (disk : Disk) (path text : String) : Disk :=
  { disk with bytes := Function.update disk.bytes (disk.file path) (some text.toUTF8) }

/-- The texts of the files that a command line names, as they are read ahead of its run. -/
def named (disk : Disk) (args : List String) : Files := fun path =>
  (((paths args).map fun path => (path, disk.texts path)).lookup path).join

/-- Answers a command line at the time `now` and saves the file of the run, as `program` does
on a machine. -/
def perform (disk : Disk) (now : Timestamp) (args : List String) : Run × Disk :=
  let run := run (disk.named args) now args
  match run.saved with
  | none => (run, disk)
  | some (path, text) =>
    match disk.refusal path with
    | none => (run, disk.put path text)
    | some cause => (saveFailure args path cause, disk)

variable {disk : Disk} {now now' : Timestamp} {args args' : List String}

/-- What is written is read back, at every path to the file. -/
theorem texts_put (text : String) {path other : String} (h : disk.file other = disk.file path) :
    (disk.put path text).texts other = some text := by
  have hbytes : (disk.put path text).bytes ((disk.put path text).file other) =
      some text.toUTF8 := by
    change Function.update disk.bytes (disk.file path) _ (disk.file other) = _
    rw [h, Function.update_self]
  rw [texts, hbytes, Option.bind_some, fromUTF8?_toUTF8]

theorem run_named : run (disk.named args) now args = run disk.texts now args :=
  run_congr fun path hpath => by rw [named, List.lookup_graph disk.texts hpath, Option.join_some]

theorem effect_run_named : (run (disk.named args) now args).effect =
    effectOf disk.texts now (.ofArguments args) := by
  rw [run_named, effect_run]

theorem perform_of_effect {code : UInt32}
    (h : effectOf disk.texts now (.ofArguments args) = ⟨code, none⟩) :
    (disk.perform now args).1.exitCode = code ∧ (disk.perform now args).2 = disk := by
  obtain ⟨hcode, hsaved⟩ := Effect.mk.inj (effect_run_named.trans h)
  simp only [perform, hsaved, and_true]
  exact hcode

section Writing

variable {path : String} {store : Store}

theorem perform_of_writes (h : Writes disk.texts now (.ofArguments args) path store)
    (hrefusal : disk.refusal path = none) :
    (disk.perform now args).1.exitCode = 0 ∧
      (disk.perform now args).2 = disk.put path (storeText store) := by
  obtain ⟨hcode, hsaved⟩ := Effect.mk.inj (effect_run_named.trans (effectOf_of_writes h))
  simp only [perform, hsaved, hrefusal, and_true]
  exact hcode

/-- A file that may not be written makes a run that fails and changes nothing. -/
theorem perform_of_refusal (h : Writes disk.texts now (.ofArguments args) path store)
    {cause : String} (hrefusal : disk.refusal path = some cause) :
    (disk.perform now args).1.exitCode = 1 ∧ (disk.perform now args).2 = disk := by
  obtain ⟨-, hsaved⟩ := Effect.mk.inj (effect_run_named.trans (effectOf_of_writes h))
  have hcode : (saveFailure args path cause).exitCode = 1 := by
    unfold saveFailure
    split <;> rfl
  simp only [perform, hsaved, hrefusal, and_true]
  exact hcode

end Writing

/-- A run changes the disk by the text of a store that a sync with `--write` wrote to, in its
store file, or not at all. -/
def ChangesByWriteOnly (disk : Disk) (now : Timestamp) (args : List String) : Prop :=
  (∃ path store, Writes disk.texts now (.ofArguments args) path store ∧
      disk.refusal path = none ∧ (disk.perform now args).1.exitCode = 0 ∧
      (disk.perform now args).2 = disk.put path (storeText store)) ∨
    (disk.perform now args).2 = disk ∧
      ∀ path store, Writes disk.texts now (.ofArguments args) path store →
        disk.refusal path ≠ none ∧ (disk.perform now args).1.exitCode = 1

/-- The disks that two runs leave of one: the disk as it was, or a file of it written anew with
one dossier, but for the time of the decision that was written. -/
def SameButTime (disk : Disk) (now now' : Timestamp) (left left' : Disk) : Prop :=
  left = disk ∧ left' = disk ∨
    ∃ path mrn, ∃ dossier : Dossier, ∃ decision : Decision,
      left = disk.put path (dossierText (dossier.afterWrite mrn (decision.at now))) ∧
      left' = disk.put path (dossierText (dossier.afterWrite mrn (decision.at now')))

theorem changesByWriteOnly (disk : Disk) (now : Timestamp) (args : List String) :
    disk.ChangesByWriteOnly now args := by
  rcases effect_cases disk.texts (.ofArguments args) with ⟨code, heffect⟩ |
    ⟨path, mrn, dossier, decision, hwrites⟩
  · refine Or.inr ⟨(perform_of_effect (heffect now)).2, fun path store hwrites => ?_⟩
    have hsaved := congrArg Effect.saved ((effectOf_of_writes hwrites).symm.trans (heffect now))
    cases hsaved
  · obtain ⟨store, hwrites, -⟩ := hwrites now
    cases hrefusal : disk.refusal path with
    | none =>
      obtain ⟨hcode, hleft⟩ := perform_of_writes hwrites hrefusal
      exact Or.inl ⟨path, store, hwrites, hrefusal, hcode, hleft⟩
    | some cause =>
      obtain ⟨hcode, hleft⟩ := perform_of_refusal hwrites hrefusal
      refine Or.inr ⟨hleft, fun path' store' hwrites' => ⟨?_, hcode⟩⟩
      have hsaved := congrArg Effect.saved
        ((effectOf_of_writes hwrites').symm.trans (effectOf_of_writes hwrites))
      obtain ⟨rfl, -⟩ := Prod.mk.inj (Option.some.inj hsaved)
      simp [hrefusal]

/-- Invocations that differ in flags only do the same on a disk, at any two times. -/
theorem perform_of_bare
    (h : (Invocation.ofArguments args).bare = (Invocation.ofArguments args').bare) :
    (disk.perform now args).1.exitCode = (disk.perform now' args').1.exitCode ∧
      disk.SameButTime now now' (disk.perform now args).2 (disk.perform now' args').2 := by
  have heffects (t : Timestamp) : effectOf disk.texts t (.ofArguments args) =
      effectOf disk.texts t (.ofArguments args') := by
    rw [← effectOf_bare, h, effectOf_bare]
  rcases effect_cases disk.texts (.ofArguments args) with ⟨code, heffect⟩ |
    ⟨path, mrn, dossier, decision, hwrites⟩
  · obtain ⟨hcode, hleft⟩ := perform_of_effect (heffect now)
    obtain ⟨hcode', hleft'⟩ := perform_of_effect ((heffects now').symm.trans (heffect now'))
    exact ⟨hcode.trans hcode'.symm, Or.inl ⟨hleft, hleft'⟩⟩
  · obtain ⟨store, hwrite, hstore⟩ := hwrites now
    obtain ⟨store', hwrite', hstore'⟩ := hwrites now'
    replace hwrite' := writes_of_bare h hwrite'
    cases hrefusal : disk.refusal path with
    | none =>
      obtain ⟨hcode, hleft⟩ := perform_of_writes hwrite hrefusal
      obtain ⟨hcode', hleft'⟩ := perform_of_writes hwrite' hrefusal
      refine ⟨hcode.trans hcode'.symm, Or.inr ⟨path, mrn, dossier, decision, ?_, ?_⟩⟩
      · rw [hleft, ← hstore, storeText, dossierText]
      · rw [hleft', ← hstore', storeText, dossierText]
    | some cause =>
      obtain ⟨hcode, hleft⟩ := perform_of_refusal hwrite hrefusal
      obtain ⟨hcode', hleft'⟩ := perform_of_refusal hwrite' hrefusal
      exact ⟨hcode.trans hcode'.symm, Or.inl ⟨hleft, hleft'⟩⟩

/-- Only a sync with `--write` that wrote changes a file, its store file, and no run that fails
does. The flags of the output change neither the exit code of a run nor, but for the time of the
decision that is written, any file. -/
theorem effects (disk : Disk) (now : Timestamp) (args : List String) :
    disk.ChangesByWriteOnly now args ∧
      ((disk.perform now args).1.exitCode ≠ 0 → (disk.perform now args).2 = disk) ∧
      ∀ args' now', Invocation.ofArguments args ≠ .misuse →
        Invocation.ofArguments args' ≠ .misuse →
        Arguments.unflagged args = Arguments.unflagged args' →
          (disk.perform now args).1.exitCode = (disk.perform now' args').1.exitCode ∧
          disk.SameButTime now now' (disk.perform now args).2 (disk.perform now' args').2 := by
  have hchange := disk.changesByWriteOnly now args
  refine ⟨hchange, fun hcode => ?_, fun args' now' h h' hflags =>
    perform_of_bare (Invocation.bare_ofArguments h h' hflags)⟩
  rcases hchange with ⟨path, store, -, -, hcode', -⟩ | ⟨hleft, -⟩
  · exact absurd hcode' hcode
  · exact hleft

/-! ## A sync of horses -/

/-- A disk with one file, which holds a dossier. -/
def holding (dossier : Dossier) : Disk where
  file _ := 0
  bytes _ := some (dossierText dossier).toUTF8
  refusal _ := none

theorem texts_holding (dossier : Dossier) : (holding dossier).texts = fileOf dossier :=
  funext fun _ => fromUTF8?_toUTF8 (dossierText dossier)

/-- A sync that is to write. -/
def horsesSync : List String := ["sync", "--write", "store.json", "25GB0000000000012"]

/-- The same, with flags in two places. -/
def horsesSyncFlagged : List String :=
  ["--output", "json", "sync", "--write", "--quiet", "store.json", "25GB0000000000012"]

/-- The horses carry no decision yet. -/
theorem exists_writes_horsesSync : ∃ path store,
    Writes (fileOf (horsesWith [horsesNotified 1])) .epoch (.ofArguments horsesSync) path
      store := by
  have hargs : Invocation.ofArguments horsesSync =
      .run plainOptions (.sync "store.json" "25GB0000000000012" true) := by decide +kernel
  rw [hargs]
  rcases @sync_ofDossier _ _ _ .standard .epoch (held?_horsesWith [horsesNotified 1]) with
    ⟨⟨_, hdecision, -⟩, -⟩ | ⟨-, record, store, hsync, -⟩
  · cases hdecision
  · exact ⟨_, store, _, _, _, _, _, record, rfl, rfl, readDossier_horsesWith _ rfl _, hsync⟩

/-- A disk with the horses. -/
def horsesHolding : Disk := holding (horsesWith [horsesNotified 1])

/-- The decision on the horses is saved, and with the flags it is saved at any other time, the
same but for the time. -/
theorem horses_effects :
    (∃ path store, Writes horsesHolding.texts .epoch (.ofArguments horsesSync) path store ∧
        (horsesHolding.perform .epoch horsesSync).1.exitCode = 0 ∧
        (horsesHolding.perform .epoch horsesSync).2.texts path = some (storeText store)) ∧
      ∀ now', (horsesHolding.perform .epoch horsesSync).1.exitCode =
          (horsesHolding.perform now' horsesSyncFlagged).1.exitCode ∧
        horsesHolding.SameButTime .epoch now' (horsesHolding.perform .epoch horsesSync).2
          (horsesHolding.perform now' horsesSyncFlagged).2 := by
  obtain ⟨hchange, -, hflags⟩ := effects horsesHolding .epoch horsesSync
  refine ⟨?_, fun now' => hflags horsesSyncFlagged now' (by decide +kernel) (by decide +kernel)
    (by decide +kernel)⟩
  rcases hchange with ⟨path, store, hwrites, -, hcode, hleft⟩ | ⟨-, hrefused⟩
  · exact ⟨path, store, hwrites, hcode, by rw [hleft, texts_put _ rfl]⟩
  · obtain ⟨path, store, hwrites⟩ := exists_writes_horsesSync
    rw [← texts_holding] at hwrites
    exact absurd rfl (hrefused path store hwrites).1

end Disk

end BorderControl
