import BorderControl.Sync
import BorderControl.Timestamp.Clock
import BorderControl.Proofs.Findings

/-!
# Syncs that interleave

A `Call` is a sync under way. Each of its steps is answered by a backend in one go
(`Call.advanceOn`), here by the store, and between the steps other calls and other writers
come in (`World.step`). The events of a run spare an MRN if nothing but calls touches the
declaration under it (`Event.Spares`).

The derived decision is written at most once. Until then the store holds what it held at
first, so every call that means to write expects the marker found there. The derived
marker differs from that one, or the decisions would have been the same, so later writes
are refused. `World.Tracks` says this of a world in which calls are under way;
`World.tracks_step` carries it over one event, and `World.tracks_run` over a run.
-/

namespace BorderControl

/-! ## Calls -/

namespace Sync

/-- How far a sync has come. -/
inductive Progress where
  | ready
  | fetched (record : DeclarationRecord)
  | planned (plan : Plan)
  | finished (result : Except SyncError SyncOutcome)

namespace Progress

/-- The sync has written its decision. -/
def hasWritten : Progress → Bool
  | finished (.ok outcome) => outcome.wasWritten
  | _ => false

end Progress

end Sync

open Sync

/-- A sync under way: its declaration, its rules, the time on its clock, and how far it
has come. -/
structure Call where
  mrn : String
  sets : RuleSets
  now : Timestamp
  progress : Progress

/-- The next step of the call on a backend, and the state of the backend after it. -/
def Call.advanceOn {σ : Type} (c : Call) (b : Backend σ) (s : σ) : Progress × σ :=
  match c.progress with
  | .ready =>
    match Sync.fetch b c.mrn s with
    | .ok record => (.fetched record, s)
    | .error e => (.finished (.error e), s)
  | .fetched record =>
    match Sync.plan b c.sets c.now c.mrn record s with
    | .ok plan => (.planned plan, s)
    | .error e => (.finished (.error e), s)
  | .planned plan =>
    let (result, s) := Sync.carryOut b c.mrn plan s
    (.finished result, s)
  | .finished result => (.finished result, s)

/-- The next step of the call on the store itself. -/
def Call.advance (c : Call) (s : Store) : Progress × Store := c.advanceOn Store.backend s

namespace Call

/-- The call is for the MRN and has written its decision. -/
def hasWritten (mrn : String) (c : Call) : Bool := c.mrn == mrn && c.progress.hasWritten

theorem hasWritten_of_eq {mrn : String} {c : Call} (h : c.mrn = mrn) :
    c.hasWritten mrn = c.progress.hasWritten := by
  simp [hasWritten, h]

theorem hasWritten_of_ne {mrn : String} {c : Call} (h : c.mrn ≠ mrn) :
    c.hasWritten mrn = false := by
  simp [hasWritten, h]

variable {σ : Type} {c : Call} {b : Backend σ} {s : σ}

theorem advanceOn_ready (hp : c.progress = .ready) {record : DeclarationRecord}
    (h : Sync.fetch b c.mrn s = .ok record) : c.advanceOn b s = (.fetched record, s) := by
  simp only [advanceOn, hp, h]

theorem advanceOn_fetched {record : DeclarationRecord} (hp : c.progress = .fetched record)
    {plan : Plan} (h : Sync.plan b c.sets c.now c.mrn record s = .ok plan) :
    c.advanceOn b s = (.planned plan, s) := by
  simp only [advanceOn, hp, h]

theorem advanceOn_planned {plan : Plan} (hp : c.progress = .planned plan) :
    c.advanceOn b s =
      (.finished (Sync.carryOut b c.mrn plan s).1, (Sync.carryOut b c.mrn plan s).2) := by
  simp only [advanceOn, hp]

theorem advanceOn_finished {result : Except SyncError SyncOutcome}
    (hp : c.progress = .finished result) : c.advanceOn b s = (.finished result, s) := by
  simp only [advanceOn, hp]

end Call

/-- Calls that are under way, and the store that they share. -/
structure World where
  calls : List Call
  store : Store

/-- What happens next: the call at a place takes its next step, or someone else inserts a
declaration or writes a decision. -/
inductive Event where
  | advance (i : Nat)
  | insert (d : Declaration) (notifications : List Notification)
  | write (mrn : String) (d : Decision) (expected : Option String)

namespace World

/-- The call at a place takes its next step on a backend. -/
def advanceOn (w : World) (i : Nat) (b : Backend Store) : World :=
  match w.calls[i]? with
  | some c =>
    let (progress, store) := c.advanceOn b w.store
    ⟨w.calls.set i { c with progress := progress }, store⟩
  | none => w

def step (w : World) : Event → World
  | .advance i => w.advanceOn i Store.backend
  | .insert d notifications => { w with store := w.store.insert d notifications }
  | .write mrn d expected => { w with store := (w.store.write mrn d expected).2 }

def run (w : World) (events : List Event) : World := events.foldl step w

theorem run_cons (w : World) (e : Event) (events : List Event) :
    w.run (e :: events) = (w.step e).run events := rfl

theorem run_append (w : World) (events events' : List Event) :
    w.run (events ++ events') = (w.run events).run events' := List.foldl_append

section AdvanceOn

variable {w : World} {i : Nat} {c : Call}

theorem advanceOn_of_call (hc : w.calls[i]? = some c) (b : Backend Store) :
    w.advanceOn i b = ⟨w.calls.set i { c with progress := (c.advanceOn b w.store).1 },
      (c.advanceOn b w.store).2⟩ := by
  simp only [advanceOn, hc]

theorem advanceOn_of_no_call (hc : w.calls[i]? = none) (b : Backend Store) :
    w.advanceOn i b = w := by
  simp only [advanceOn, hc]

/-- A call moves in its own steps alone. -/
theorem calls_advanceOn_of_ne {j : Nat} (h : j ≠ i) (b : Backend Store) :
    (w.advanceOn j b).calls[i]? = w.calls[i]? := by
  unfold advanceOn
  split
  · exact List.getElem?_set_ne h
  · rfl

theorem calls_advanceOn (hc : w.calls[i]? = some c) (b : Backend Store) :
    (w.advanceOn i b).calls[i]? = some { c with progress := (c.advanceOn b w.store).1 } := by
  rw [advanceOn_of_call hc]
  exact List.getElem?_set_self (List.getElem?_eq_some_iff.mp hc).1

theorem store_advanceOn (hc : w.calls[i]? = some c) (b : Backend Store) :
    (w.advanceOn i b).store = (c.advanceOn b w.store).2 := by
  rw [advanceOn_of_call hc]

theorem step_of_call (hc : w.calls[i]? = some c) : w.step (.advance i) =
    ⟨w.calls.set i { c with progress := (c.advance w.store).1 }, (c.advance w.store).2⟩ :=
  advanceOn_of_call hc Store.backend

theorem step_of_no_call (hc : w.calls[i]? = none) : w.step (.advance i) = w :=
  advanceOn_of_no_call hc Store.backend

end AdvanceOn

end World

/-- The event is no insertion and no write of another writer under the MRN. -/
def Event.Spares (mrn : String) : Event → Prop
  | .advance _ => True
  | .insert d _ => d.mrn ≠ mrn
  | .write mrn' _ _ => mrn' ≠ mrn

/-- The writes under an MRN, the oldest first. -/
def Store.writesOf (s : Store) (mrn : String) : List WriteRecord :=
  s.writes.filter (·.mrn == mrn)

/-! ## Other declarations -/

section Frame

variable {s : Store} {mrn mrn' : String}

theorem get?_insert_of_ne {d : Declaration} (h : d.mrn ≠ mrn) (notifications : List Notification) :
    (s.insert d notifications).holdings.get? mrn = s.holdings.get? mrn := by
  rw [Store.insert, Table.get?_insert, if_neg h]

/-- A write under another MRN neither changes a holding nor adds to its writes. -/
theorem write_of_ne (h : mrn' ≠ mrn) (d : Decision) (expected : Option String) :
    (s.write mrn' d expected).2.holdings.get? mrn = s.holdings.get? mrn ∧
      (s.write mrn' d expected).2.writesOf mrn = s.writesOf mrn := by
  unfold Store.write
  split
  · exact ⟨rfl, rfl⟩
  dsimp only
  split
  · exact ⟨rfl, rfl⟩
  · refine ⟨by rw [Table.get?_insert, if_neg h], ?_⟩
    simp [Store.writesOf, h]

/-- A call for another MRN neither changes a holding nor adds to its writes. -/
theorem advance_of_ne {c : Call} (h : c.mrn ≠ mrn) :
    (c.advance s).2.holdings.get? mrn = s.holdings.get? mrn ∧
      (c.advance s).2.writesOf mrn = s.writesOf mrn := by
  unfold Call.advance Call.advanceOn
  split
  · split <;> exact ⟨rfl, rfl⟩
  · split <;> exact ⟨rfl, rfl⟩
  · next plan hplan =>
    cases plan with
    | keep d => exact ⟨rfl, rfl⟩
    | write d expected =>
      have hwrite := write_of_ne (s := s) h d expected
      simp only [Sync.carryOut, Store.backend]
      split <;> (next heq => rw [heq] at hwrite; exact hwrite)
  · exact ⟨rfl, rfl⟩

end Frame

/-! ## Writes -/

section Write

variable {s : Store} {mrn : String} {h : Holding} {d : Decision}

/-- A write that names the stored marker is accepted. -/
theorem write_of_marker (hheld : s.holdings.get? mrn = some h) :
    ∃ record, record.mrn = mrn ∧ s.write mrn d h.declaration.marker? = (.ok record,
      { holdings := s.holdings.insert mrn
          { h with declaration := h.declaration.withDecision (some d) }
        writes := s.writes ++ [record] }) := by
  refine ⟨⟨mrn, s.writes.length + 1, h.declaration.marker?, d.sourceVersion⟩, rfl, ?_⟩
  simp only [Store.write, hheld, ne_eq, not_true_eq_false, if_false]
  rfl

/-- A write that names another marker is refused. -/
theorem write_of_marker_ne (hheld : s.holdings.get? mrn = some h) {expected : Option String}
    (hne : h.declaration.marker? ≠ expected) :
    s.write mrn d expected = (.error (.conflict mrn expected h.declaration.marker?), s) := by
  simp only [Store.write, hheld, ne_eq, hne, not_false_eq_true, if_true]

theorem carryOut_write_ok {expected : Option String} {record : WriteRecord} {s' : Store}
    (h : s.write mrn d expected = (.ok record, s')) :
    Sync.carryOut Store.backend mrn (.write d expected) s = (.ok (.written d record), s') := by
  simp only [Sync.carryOut, Store.backend, h]

theorem carryOut_write_error {expected : Option String} {e : StoreError} {s' : Store}
    (h : s.write mrn d expected = (.error e, s')) :
    Sync.carryOut Store.backend mrn (.write d expected) s = (.error (.store e), s') := by
  simp only [Sync.carryOut, Store.backend, h]

end Write

/-! ## The derived decision -/

/-- The declaration holds a decision that is the same as the derived one. -/
def Declaration.IsSettled (d : Declaration) (derived : Decision) : Prop :=
  ∃ stored, d.decision = some stored ∧ stored.sameAs derived = true

section Derived

variable {d : Declaration} {sets : RuleSets} {now : Timestamp}
  {notifications : List Notification} {derived : Decision}

theorem sourceVersion_of_derive (h : d.derive sets now notifications = .ok derived) :
    derived.sourceVersion.isSome = true := by
  obtain ⟨findings, -, rfl⟩ := Declaration.derive_eq_ok_iff.mp h
  rfl

theorem at_sameAs (hmarker : derived.sourceVersion.isSome = true) (t : Timestamp) :
    (derived.at t).sameAs derived = true := by
  simp [Decision.sameAs, Decision.sameMarker, Decision.at, hmarker]

/-- A declaration that is not settled has another marker than the derived decision. -/
theorem marker?_ne (hmarker : derived.sourceVersion.isSome = true)
    (h : ¬ d.IsSettled derived) : d.marker? ≠ derived.sourceVersion := by
  intro heq
  obtain ⟨m, hm⟩ := Option.isSome_iff_exists.mp hmarker
  rw [hm, Declaration.marker?] at heq
  obtain ⟨stored, hstored, hversion⟩ := Option.bind_eq_some_iff.mp heq
  exact h ⟨stored, hstored, by simp [Decision.sameAs, Decision.sameMarker, hversion, hm]⟩

/-- A plan keeps the decision of a settled declaration, and writes over any other. -/
theorem planOf_cases (record : DeclarationRecord) (derived : Decision) :
    record.declaration.IsSettled derived ∧ Plan.of record derived = .keep derived ∨
      ¬ record.declaration.IsSettled derived ∧
        Plan.of record derived = .write derived record.decisionVersion := by
  unfold Plan.of
  split
  · next prior hprior =>
    split
    · next hsame => exact Or.inl ⟨⟨prior, hprior, hsame⟩, rfl⟩
    · next hsame =>
      refine Or.inr ⟨?_, rfl⟩
      rintro ⟨stored, hstored, hs⟩
      rw [hprior, Option.some.injEq] at hstored
      exact hsame (hstored ▸ hs)
  · next hnone =>
    refine Or.inr ⟨?_, rfl⟩
    rintro ⟨stored, hstored, -⟩
    rw [hnone] at hstored
    cases hstored

end Derived

/-! ## Where a run starts -/

/-- What a run starts from: a store, what it holds under the MRN, and the decision that the
rules derive from that. -/
structure Origin where
  store : Store
  mrn : String
  held : Holding
  sets : RuleSets
  derived : Decision
  get?_eq : store.holdings.get? mrn = some held
  derives : ∀ now, held.declaration.derive sets now held.notifications = .ok (derived.at now)
  marked : derived.sourceVersion.isSome = true

namespace Origin

/-- What is held once the derived decision is written. -/
def heldAt (o : Origin) (t : Timestamp) : Holding :=
  { o.held with declaration := o.held.declaration.withDecision (some (o.derived.at t)) }

/-- What the store holds under the MRN, and whether the run has written it: what it held at
first, or the derived decision over a decision that is not the same. -/
inductive Stage (o : Origin) (s : Store) : Bool → Prop
  | untouched (hheld : s.holdings.get? o.mrn = some o.held)
      (hwrites : s.writesOf o.mrn = o.store.writesOf o.mrn) : Stage o s false
  | written (t : Timestamp) (record : WriteRecord)
      (hnew : ¬ o.held.declaration.IsSettled o.derived)
      (hheld : s.holdings.get? o.mrn = some (o.heldAt t))
      (hwrites : s.writesOf o.mrn = o.store.writesOf o.mrn ++ [record]) : Stage o s true

/-- The same decision as the derived one is stored. -/
def Settled (o : Origin) (written : Bool) : Prop :=
  o.held.declaration.IsSettled o.derived ∨ written = true

/-- The record was fetched before the write, or after it. -/
def Fetched (o : Origin) (written : Bool) (record : DeclarationRecord) : Prop :=
  record = ⟨o.held.declaration, o.held.declaration.marker?⟩ ∨
    written = true ∧ ∃ t, record = ⟨(o.heldAt t).declaration, o.derived.sourceVersion⟩

/-- The ways in which a call may end. -/
def Ends (o : Origin) (now : Timestamp) (result : Except SyncError SyncOutcome) : Prop :=
  result = .ok (.unchanged (o.derived.at now)) ∨
    (∃ record, result = .ok (.written (o.derived.at now) record)) ∨
    result = .error (.store
      (.conflict o.mrn o.held.declaration.marker? o.derived.sourceVersion))

/-- The progress that a call for the MRN may have made. -/
def Allows (o : Origin) (written : Bool) (now : Timestamp) : Progress → Prop
  | .ready => True
  | .fetched record => o.Fetched written record
  | .planned plan =>
    plan = .keep (o.derived.at now) ∧ o.Settled written ∨
      plan = .write (o.derived.at now) o.held.declaration.marker? ∧
        ¬ o.held.declaration.IsSettled o.derived
  | .finished result => o.Settled written ∧ o.Ends now result

variable {o : Origin} {s : Store} {written : Bool} {now : Timestamp}

theorem Stage.of_frame {s' : Store} (h : o.Stage s written)
    (hheld : s'.holdings.get? o.mrn = s.holdings.get? o.mrn)
    (hwrites : s'.writesOf o.mrn = s.writesOf o.mrn) : o.Stage s' written := by
  cases h with
  | untouched h₁ h₂ => exact .untouched (hheld.trans h₁) (hwrites.trans h₂)
  | written t record hnew h₁ h₂ =>
    exact .written t record hnew (hheld.trans h₁) (hwrites.trans h₂)

theorem Settled.mono {written' : Bool} (hle : written = true → written' = true)
    (h : o.Settled written) : o.Settled written' :=
  h.imp_right hle

theorem Allows.mono {written' : Bool} (hle : written = true → written' = true)
    {p : Progress} (h : o.Allows written now p) : o.Allows written' now p := by
  cases p with
  | ready => trivial
  | fetched record => exact Or.imp_right (And.imp_left hle) h
  | planned plan => exact Or.imp_left (And.imp_right (Settled.mono hle)) h
  | finished result => exact ⟨Settled.mono hle h.1, h.2⟩

/-! ## The steps of a call -/

theorem fetch_eq (h : o.Stage s written) :
    ∃ record, Sync.fetch Store.backend o.mrn s = .ok record ∧ o.Fetched written record := by
  cases h with
  | untouched hheld _ =>
    refine ⟨_, ?_, Or.inl rfl⟩
    simp [Sync.fetch, Store.backend, Store.fetch, hheld, Except.mapError]
  | written t record hnew hheld _ =>
    refine ⟨_, ?_, Or.inr ⟨rfl, t, rfl⟩⟩
    simp only [Sync.fetch, Store.backend, Store.fetch, hheld, Except.mapError]
    rfl

theorem list_eq (h : o.Stage s written) : s.list o.mrn = o.held.notifications := by
  cases h with
  | untouched hheld _ => simp [Store.list, hheld]
  | written t record hnew hheld _ => simp [Store.list, hheld, heldAt]

/-- A call plans from what it fetched, whatever was written since. -/
theorem plan_eq (h : o.Stage s written) {record : DeclarationRecord}
    (hr : o.Fetched written record) (now : Timestamp) :
    ∃ plan, Sync.plan Store.backend o.sets now o.mrn record s = .ok plan ∧
      o.Allows written now (.planned plan) := by
  have hderive : record.declaration.derive o.sets now o.held.notifications =
      .ok (o.derived.at now) := by
    rcases hr with rfl | ⟨-, t, rfl⟩
    · exact o.derives now
    · exact (Declaration.derive_withDecision _ _ _ _ _).trans (o.derives now)
  refine ⟨Plan.of record (o.derived.at now), ?_, ?_⟩
  · simp only [Sync.plan, Store.backend, list_eq h, Except.mapError, bind, Except.bind, hderive]
    rfl
  rcases planOf_cases record (o.derived.at now) with ⟨hset, hplan⟩ | ⟨hnew, hplan⟩
  · refine Or.inl ⟨hplan, ?_⟩
    rcases hr with rfl | ⟨hw, -⟩
    · exact Or.inl hset
    · exact Or.inr hw
  · rcases hr with rfl | ⟨-, t, rfl⟩
    · exact Or.inr ⟨hplan, hnew⟩
    · exact absurd ⟨_, rfl, at_sameAs o.marked t⟩ hnew

/-- The first write over the marker found at first is accepted, later ones are refused. -/
theorem write_eq (h : o.Stage s written) (hnew : ¬ o.held.declaration.IsSettled o.derived)
    (t : Timestamp) :
    (written = false ∧ ∃ record s', o.Stage s' true ∧
      s.write o.mrn (o.derived.at t) o.held.declaration.marker? = (.ok record, s')) ∨
    written = true ∧ s.write o.mrn (o.derived.at t) o.held.declaration.marker? =
      (.error (.conflict o.mrn o.held.declaration.marker? o.derived.sourceVersion), s) := by
  cases h with
  | untouched hheld hwrites =>
    obtain ⟨record, hmrn, hwrite⟩ := write_of_marker (d := o.derived.at t) hheld
    refine Or.inl ⟨rfl, record, _, .written t record hnew ?_ ?_, hwrite⟩
    · rw [Table.get?_insert, if_pos rfl]
      rfl
    · rw [← hwrites]
      simp [Store.writesOf, hmrn]
  | written t' record _ hheld _ =>
    exact Or.inr ⟨rfl, write_of_marker_ne hheld (marker?_ne o.marked hnew).symm⟩

/-- One step of a call for the MRN. The call has written after it, and not before, exactly
if the step is the write of the run. -/
theorem advance_spec {c : Call} (h : o.Stage s written) (hmrn : c.mrn = o.mrn)
    (hsets : c.sets = o.sets) (hc : o.Allows written c.now c.progress) :
    ∃ written', (written = true → written' = true) ∧ o.Stage (c.advance s).2 written' ∧
      o.Allows written' c.now (c.advance s).1 ∧
      (c.advance s).1.hasWritten.toNat + written.toNat =
        c.progress.hasWritten.toNat + written'.toNat := by
  rw [Call.advance]
  cases hp : c.progress with
  | ready =>
    obtain ⟨record, hfetch, hr⟩ := fetch_eq h
    rw [Call.advanceOn_ready hp (hmrn ▸ hfetch)]
    exact ⟨written, id, h, hr, rfl⟩
  | fetched record =>
    rw [hp] at hc
    obtain ⟨plan, hplan, hallows⟩ := plan_eq h hc c.now
    rw [Call.advanceOn_fetched hp (hmrn ▸ hsets ▸ hplan)]
    exact ⟨written, id, h, hallows, rfl⟩
  | planned plan =>
    rw [hp] at hc
    rw [Call.advanceOn_planned hp, hmrn]
    rcases hc with ⟨rfl, hset⟩ | ⟨rfl, hnew⟩
    · exact ⟨written, id, h, ⟨hset, Or.inl rfl⟩, rfl⟩
    rcases write_eq h hnew c.now with ⟨rfl, record, s', hs', hwrite⟩ | ⟨rfl, hwrite⟩
    · rw [carryOut_write_ok hwrite]
      exact ⟨true, fun _ => rfl, hs', ⟨Or.inr rfl, Or.inr (Or.inl ⟨record, rfl⟩)⟩, rfl⟩
    · rw [carryOut_write_error hwrite]
      exact ⟨true, id, h, ⟨Or.inr rfl, Or.inr (Or.inr rfl)⟩, rfl⟩
  | finished result =>
    rw [hp] at hc
    rw [Call.advanceOn_finished hp]
    exact ⟨written, id, h, hc, rfl⟩

end Origin

/-! ## The steps of a world -/

namespace World

/-- How many of the calls for an MRN have written. -/
def writers (w : World) (mrn : String) : Nat := w.calls.countP (·.hasWritten mrn)

/-- The store is at a stage of the run, every call for the MRN has come no further than the
stage allows, and one of them has written if the run has. -/
structure Tracks (w : World) (o : Origin) (written : Bool) : Prop where
  stage : o.Stage w.store written
  calls : ∀ c ∈ w.calls, c.mrn = o.mrn → c.sets = o.sets ∧ o.Allows written c.now c.progress
  writers : w.writers o.mrn = written.toNat

theorem countP_set_add {α : Type} (p : α → Bool) {a : α} (a' : α) :
    ∀ {l : List α} {i : Nat}, l[i]? = some a →
      (l.set i a').countP p + (p a).toNat = l.countP p + (p a').toNat
  | [], _, h => by simp at h
  | b :: l, 0, h => by
    obtain rfl : b = a := by simpa using h
    rw [List.set_cons_zero, List.countP_cons, List.countP_cons]
    cases p b <;> cases p a' <;> rfl
  | b :: l, i + 1, h => by
    have ih := countP_set_add p a' (l := l) (i := i) (by simpa using h)
    rw [List.set_cons_succ, List.countP_cons, List.countP_cons]
    omega

variable {o : Origin} {w : World} {written : Bool}

/-- A world is tracked on while nothing happens to the calls for the MRN or to the
declaration under it. -/
theorem Tracks.of_frame {store : Store} (h : w.Tracks o written)
    (hheld : store.holdings.get? o.mrn = w.store.holdings.get? o.mrn)
    (hwrites : store.writesOf o.mrn = w.store.writesOf o.mrn) :
    Tracks ⟨w.calls, store⟩ o written :=
  ⟨h.stage.of_frame hheld hwrites, h.calls, h.writers⟩

theorem tracks_advance (h : w.Tracks o written) (i : Nat) :
    ∃ written', (w.step (.advance i)).Tracks o written' := by
  cases hi : w.calls[i]? with
  | none => exact ⟨written, by rwa [step_of_no_call hi]⟩
  | some c =>
    rw [step_of_call hi]
    have hcount := countP_set_add (·.hasWritten o.mrn)
      { c with progress := (c.advance w.store).1 } hi
    have hwriters : w.calls.countP (·.hasWritten o.mrn) = written.toNat := h.writers
    by_cases hmrn : c.mrn = o.mrn
    · obtain ⟨hsets, hallows⟩ := h.calls c (List.mem_of_getElem? hi) hmrn
      obtain ⟨written', hle, hstage, hallows', hbalance⟩ :=
        Origin.advance_spec h.stage hmrn hsets hallows
      refine ⟨written', hstage, fun c' hc' hmrn' => ?_, ?_⟩
      · rcases List.mem_or_eq_of_mem_set hc' with hmem | rfl
        · exact (h.calls c' hmem hmrn').imp_right (Origin.Allows.mono hle)
        · exact ⟨hsets, hallows'⟩
      · have hafter : ({ c with progress := (c.advance w.store).1 } : Call).hasWritten o.mrn =
            (c.advance w.store).1.hasWritten := Call.hasWritten_of_eq hmrn
        rw [Call.hasWritten_of_eq hmrn, hafter] at hcount
        simp only [writers]
        omega
    · obtain ⟨hheld, hwrites⟩ := advance_of_ne (s := w.store) hmrn
      refine ⟨written, h.stage.of_frame hheld hwrites, fun c' hc' hmrn' => ?_, ?_⟩
      · rcases List.mem_or_eq_of_mem_set hc' with hmem | rfl
        · exact h.calls c' hmem hmrn'
        · exact absurd hmrn' hmrn
      · rw [Call.hasWritten_of_ne hmrn, Call.hasWritten_of_ne (by exact hmrn)] at hcount
        simp only [writers]
        omega

/-- What one event preserves. -/
theorem tracks_step (h : w.Tracks o written) {e : Event} (he : e.Spares o.mrn) :
    ∃ written', (w.step e).Tracks o written' := by
  cases e with
  | advance i => exact tracks_advance h i
  | insert d notifications => exact ⟨written, h.of_frame (get?_insert_of_ne he notifications) rfl⟩
  | write mrn d expected =>
    obtain ⟨hheld, hwrites⟩ := write_of_ne (s := w.store) he d expected
    exact ⟨written, h.of_frame hheld hwrites⟩

/-- What a run preserves. -/
theorem tracks_run : ∀ {events : List Event} {w : World} {written : Bool},
    w.Tracks o written → (∀ e ∈ events, e.Spares o.mrn) →
      ∃ written', (w.run events).Tracks o written'
  | [], w, written, h, _ => ⟨written, h⟩
  | e :: events, w, written, h, hspares => by
    obtain ⟨written', h'⟩ := tracks_step h (hspares e List.mem_cons_self)
    rw [run_cons]
    exact tracks_run h' fun e' he' => hspares e' (List.mem_cons_of_mem _ he')

/-! ## Syncs in turn -/

theorem step_advance {calls : List Call} {i : Nat} (hi : i < calls.length) (c : Call)
    (s : Store) : step ⟨calls.set i c, s⟩ (.advance i) =
      ⟨calls.set i { c with progress := (c.advance s).1 }, (c.advance s).2⟩ := by
  rw [step_of_call (List.getElem?_set_self hi), List.set_set]

/-- A call that nobody comes in between is a sync. -/
theorem run_undisturbed (calls : List Call) {i : Nat} (hi : i < calls.length) {c : Call}
    (hp : c.progress = .ready) (s : Store) :
    run ⟨calls.set i c, s⟩ [.advance i, .advance i, .advance i] =
      ⟨calls.set i { c with progress := .finished (sync Store.backend c.sets c.now c.mrn s).1 },
        (sync Store.backend c.sets c.now c.mrn s).2⟩ := by
  simp only [run, List.foldl_cons, List.foldl_nil, step_advance hi, sync]
  cases hf : Sync.fetch Store.backend c.mrn s with
  | error e => simp only [Call.advance, Call.advanceOn, hp, hf]
  | ok record =>
    cases hplan : Sync.plan Store.backend c.sets c.now c.mrn record s with
    | error e => simp only [Call.advance, Call.advanceOn, hp, hf, hplan]
    | ok plan => simp only [Call.advance, Call.advanceOn, hp, hf, hplan]

/-- The three steps of `n` calls, one call after the other. -/
def inTurn (first : Nat) : Nat → List Event
  | 0 => []
  | n + 1 => [.advance first, .advance first, .advance first] ++ inTurn (first + 1) n

theorem spares_of_mem_inTurn {mrn : String} :
    ∀ {n first : Nat} {e : Event}, e ∈ inTurn first n → e.Spares mrn
  | 0, _, _, h => by cases h
  | n + 1, first, e, h => by
    rcases List.mem_append.mp h with h | h
    · simp only [List.mem_cons, List.not_mem_nil, or_false, or_self] at h
      exact h ▸ trivial
    · exact spares_of_mem_inTurn h

end World

/-- Calls for one declaration that have yet to begin. -/
def readyCalls (sets : RuleSets) (mrn : String) (times : List Timestamp) : List Call :=
  times.map fun now => ⟨mrn, sets, now, .ready⟩

/-- Syncs of one declaration, one after the other. -/
def syncAll (sets : RuleSets) (mrn : String) (times : List Timestamp) (s : Store) : Store :=
  times.foldl (fun s now => (sync Store.backend sets now mrn s).2) s

/-- Calls in turn leave the store that the syncs leave. -/
theorem World.run_inTurn (sets : RuleSets) (mrn : String) :
    ∀ (times : List Timestamp) (done : List Call) (s : Store),
      (run ⟨done ++ readyCalls sets mrn times, s⟩ (inTurn done.length times.length)).store =
        syncAll sets mrn times s
  | [], _, _ => rfl
  | now :: times, done, s => by
    let c : Call := ⟨mrn, sets, now, .ready⟩
    have hset : ∀ c' : Call, (done ++ c :: readyCalls sets mrn times).set done.length c' =
        (done ++ [c']) ++ readyCalls sets mrn times := by
      intro c'
      simp
    have hlength : done.length < (done ++ c :: readyCalls sets mrn times).length := by simp
    have hfirst := run_undisturbed _ hlength (c := c) rfl s
    rw [hset, hset, List.append_assoc] at hfirst
    have hrest := run_inTurn sets mrn times
      (done ++ [{ c with progress := .finished (sync Store.backend sets now mrn s).1 }])
      (sync Store.backend sets now mrn s).2
    rw [List.length_append, List.length_singleton] at hrest
    rw [List.length_cons, inTurn, run_append]
    exact (congrArg (fun w => (run w _).store) hfirst).trans hrest

/-! ## At most one write -/

section Once

variable {mrn : String} {held : Holding} {sets : RuleSets} {now : Timestamp}
  {derived : Decision} {w : World}

/-- The origin of a run over a store in which the derivation succeeds. -/
def Origin.ofDerive {s : Store} (hheld : s.holdings.get? mrn = some held)
    (hderive : held.declaration.derive sets now held.notifications = .ok derived) : Origin :=
  ⟨s, mrn, held, sets, derived, hheld, fun later => Declaration.derive_at hderive later,
    sourceVersion_of_derive hderive⟩

/-- Nothing is written yet where no call for the MRN has begun. -/
theorem Origin.tracks_of_ready (o : Origin) {calls : List Call}
    (h : ∀ c ∈ calls, c.mrn = o.mrn → c.sets = o.sets ∧ c.progress = .ready) :
    World.Tracks ⟨calls, o.store⟩ o false := by
  refine ⟨.untouched o.get?_eq rfl, fun c hc hmrn => ?_, ?_⟩
  · obtain ⟨hsets, hp⟩ := h c hc hmrn
    exact ⟨hsets, hp ▸ trivial⟩
  · refine List.countP_eq_zero.mpr fun c hc hwritten => ?_
    simp only [Call.hasWritten, Bool.and_eq_true, beq_iff_eq] at hwritten
    rw [(h c hc hwritten.1).2] at hwritten
    cases hwritten.2

theorem Origin.Stage.exists_writes {o : Origin} {s : Store} {written : Bool}
    (h : o.Stage s written) :
    ∃ added, s.writesOf o.mrn = o.store.writesOf o.mrn ++ added ∧ added.length ≤ 1 := by
  cases h with
  | untouched _ hwrites => exact ⟨[], by simpa using hwrites, Nat.zero_le 1⟩
  | written t record _ _ hwrites => exact ⟨[record], hwrites, Nat.le_refl 1⟩

/-- In a settled stage the store holds a decision that is the same as one derived anew. -/
theorem Origin.Stage.exists_same {o : Origin} {s : Store} {written : Bool}
    (h : o.Stage s written) (hset : o.Settled written) :
    ∃ holding stored, s.holdings.get? o.mrn = some holding ∧
      holding.declaration.decision = some stored ∧ ∀ later, ∃ fresh,
        holding.declaration.derive o.sets later holding.notifications = .ok fresh ∧
          stored.sameAs fresh = true := by
  cases h with
  | untouched hheld _ =>
    rcases hset with ⟨stored, hstored, hsame⟩ | hwritten
    · exact ⟨_, stored, hheld, hstored, fun later => ⟨_, o.derives later, hsame⟩⟩
    · cases hwritten
  | written t _ _ hheld _ =>
    refine ⟨_, o.derived.at t, hheld, rfl, fun later => ⟨o.derived.at later, ?_, ?_⟩⟩
    · exact (Declaration.derive_withDecision _ _ _ _ _).trans (o.derives later)
    · exact at_sameAs o.marked t

/-- However the steps of any number of syncs of one declaration interleave with each other
and with what happens to other declarations, the declaration is written at most once. A
sync that ends has written, found the decision unchanged, or met a conflict of the first
marker with the derived one, and from then on the stored decision is the same as one
derived anew. So syncs in turn write at most once, too. -/
theorem World.written_at_most_once (hheld : w.store.holdings.get? mrn = some held)
    (hcalls : ∀ c ∈ w.calls, c.mrn = mrn → c.sets = sets ∧ c.progress = .ready)
    (hderive : held.declaration.derive sets now held.notifications = .ok derived) :
    (∀ events : List Event, (∀ e ∈ events, e.Spares mrn) →
      (∃ added, (w.run events).store.writesOf mrn = w.store.writesOf mrn ++ added ∧
        added.length ≤ 1) ∧
      (w.run events).writers mrn ≤ 1 ∧
      ∀ c ∈ (w.run events).calls, c.mrn = mrn → ∀ result, c.progress = .finished result →
        (result = .ok (.unchanged (derived.at c.now)) ∨
          (∃ record, result = .ok (.written (derived.at c.now) record)) ∨
          result = .error (.store
            (.conflict mrn held.declaration.marker? derived.sourceVersion))) ∧
        ∃ holding stored, (w.run events).store.holdings.get? mrn = some holding ∧
          holding.declaration.decision = some stored ∧ ∀ later, ∃ fresh,
            holding.declaration.derive sets later holding.notifications = .ok fresh ∧
              stored.sameAs fresh = true) ∧
    ∀ times, ∃ added, (syncAll sets mrn times w.store).writesOf mrn =
      w.store.writesOf mrn ++ added ∧ added.length ≤ 1 := by
  let o : Origin := .ofDerive hheld hderive
  constructor
  · intro events hspares
    obtain ⟨written, htracks⟩ := tracks_run (o.tracks_of_ready hcalls) hspares
    refine ⟨htracks.stage.exists_writes, ?_, fun c hc hmrn result hp => ?_⟩
    · exact htracks.writers ▸ Bool.toNat_le written
    · obtain ⟨-, hallows⟩ := htracks.calls c hc hmrn
      rw [hp] at hallows
      exact ⟨hallows.2, htracks.stage.exists_same hallows.1⟩
  · intro times
    have hspares : ∀ e ∈ inTurn 0 times.length, e.Spares mrn := fun e => spares_of_mem_inTurn
    have hready : ∀ c ∈ readyCalls sets mrn times, c.mrn = mrn →
        c.sets = sets ∧ c.progress = .ready := by simp [readyCalls]
    obtain ⟨written, htracks⟩ := tracks_run (o.tracks_of_ready hready) hspares
    rw [← run_inTurn sets mrn times [] w.store]
    exact htracks.stage.exists_writes

/-- A declaration of live animals that was never decided. -/
def undecided : Declaration where
  mrn := "25GB0000000000001"
  version := some 1
  finalisation := none
  commodities := [⟨1, some "0201100000", none, none, [⟨"C640", "GBCHD2025.1234567"⟩], [⟨"H221"⟩]⟩]
  decision := none

/-- Two syncs of one declaration that have yet to begin. -/
def rivals : World where
  calls := [⟨undecided.mrn, .standard .standard, .epoch, .ready⟩,
    ⟨undecided.mrn, .standard .standard, .epoch, .ready⟩]
  store := Store.empty.insert undecided []

/-- Two syncs that take their steps by turns. -/
theorem rivals_write_at_most_once :
    (rivals.run [.advance 0, .advance 1, .advance 0, .advance 1, .advance 0,
      .advance 1]).writers undecided.mrn ≤ 1 := by
  have hheld : rivals.store.holdings.get? undecided.mrn = some ⟨undecided, []⟩ := by
    rw [rivals, Store.insert, Table.get?_insert, if_pos rfl]
  have hcalls : ∀ c ∈ rivals.calls, c.mrn = undecided.mrn →
      c.sets = .standard .standard ∧ c.progress = .ready := by
    simp [rivals]
  have hderive := undecided.derive_standard .standard .epoch []
  exact ((World.written_at_most_once hheld hcalls hderive).1 _ (by simp [Event.Spares])).2.1

end Once

end BorderControl
