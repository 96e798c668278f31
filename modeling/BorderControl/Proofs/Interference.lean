import BorderControl.Proofs.History

/-!
# One sync among others

A call takes its steps in a world in which other calls and other writers come in between, and
in which the medium may be down (`World.pass`). Each step of the call is a visit to the store
(`World.visits`): whatever changes between two visits is the work of others, and what the call
itself does shows in a visit, by the store before and the store after.

A call fetches, plans and carries out its plan, each on the store that it meets
(`Course`). `Course.step` carries this over one step and `World.course_pass` over a whole
run, so a call leaves every store as it is unless it writes, and then it changes one of them
in one place (`World.effect_of_call`).
-/

namespace BorderControl

open Sync

/-! ## Worlds whose medium may be down -/

/-- A medium that is down answers nothing and keeps what it has. -/
def Backend.down {σ : Type} (text : String) : Backend σ where
  fetch _ _ := .error (.backend text)
  list _ _ := .error (.backend text)
  write s _ _ _ := (.error (.backend text), s)

/-- What happens next: an event, or a step of a call while the medium is down. -/
inductive Incident where
  | event (e : Event)
  | outage (i : Nat) (text : String)

/-- The text of the medium, if it is down, at a step of the call at the place `i`; none if
the incident is no step of that call. -/
def Incident.outageAt? (i : Nat) : Incident → Option (Option String)
  | event (.advance j) => if j = i then some none else none
  | event _ => none
  | outage j text => if j = i then some (some text) else none

/-- A step of a call: the text of the medium if it was down, and the store before and after
the step. -/
structure Visit where
  outage : Option String
  before : Store
  after : Store

/-- The store, or the medium that is down. -/
def answering (outage : Option String) : Backend Store := outage.elim Store.backend Backend.down

namespace World

def meet (w : World) : Incident → World
  | .event e => w.step e
  | .outage i text => w.advanceOn i (Backend.down text)

def pass (w : World) (incidents : List Incident) : World := incidents.foldl meet w

/-- The steps that the call at a place takes. -/
def visits (i : Nat) (w : World) : List Incident → List Visit
  | [] => []
  | e :: rest =>
    ((e.outageAt? i).map fun outage => ⟨outage, w.store, (w.meet e).store⟩).toList ++
      (w.meet e).visits i rest

section Meet

variable {w : World} {i : Nat} {e : Incident}

theorem meet_of_outageAt {outage : Option String} (h : e.outageAt? i = some outage) :
    w.meet e = w.advanceOn i (answering outage) := by
  cases e with
  | event e =>
    cases e with
    | advance j =>
      simp only [Incident.outageAt?, Option.ite_none_right_eq_some, Option.some.injEq] at h
      obtain ⟨rfl, rfl⟩ := h
      rfl
    | insert d notifications => cases h
    | write mrn d expected => cases h
  | outage j text =>
    simp only [Incident.outageAt?, Option.ite_none_right_eq_some, Option.some.injEq] at h
    obtain ⟨rfl, rfl⟩ := h
    rfl

/-- An incident that is no step of the call is one of another call, or changes the store
alone. -/
theorem meet_cases (h : e.outageAt? i = none) :
    (∃ j b, j ≠ i ∧ ∀ w : World, w.meet e = w.advanceOn j b) ∨
      ∃ f : Store → Store, ∀ w : World, w.meet e = { w with store := f w.store } := by
  cases e with
  | event e =>
    cases e with
    | advance j =>
      have hj : j ≠ i := by simpa [Incident.outageAt?] using h
      exact .inl ⟨j, Store.backend, hj, fun _ => rfl⟩
    | insert d notifications => exact .inr ⟨(·.insert d notifications), fun _ => rfl⟩
    | write mrn d expected => exact .inr ⟨fun s => (s.write mrn d expected).2, fun _ => rfl⟩
  | outage j text =>
    have hj : j ≠ i := by simpa [Incident.outageAt?] using h
    exact .inl ⟨j, Backend.down text, hj, fun _ => rfl⟩

theorem calls_meet_of_outageAt (h : e.outageAt? i = none) :
    (w.meet e).calls[i]? = w.calls[i]? := by
  obtain ⟨j, b, hj, heq⟩ | ⟨f, heq⟩ := meet_cases h
  · rw [heq, calls_advanceOn_of_ne hj]
  · rw [heq]

end Meet

/-! ## Worlds without a call -/

/-- The worlds have the same store, and the same calls but for the one at the place `i`. -/
structure AlikeBut (i : Nat) (w w' : World) : Prop where
  store : w.store = w'.store
  calls : ∀ j, j ≠ i → w.calls[j]? = w'.calls[j]?

section AlikeBut

variable {w w' : World} {i : Nat} {e : Incident}

theorem AlikeBut.advanceOn (h : AlikeBut i w w') {j : Nat} (hj : j ≠ i) (b : Backend Store) :
    AlikeBut i (w.advanceOn j b) (w'.advanceOn j b) := by
  cases hc : w.calls[j]? with
  | none =>
    have hc' : w'.calls[j]? = none := (h.calls j hj).symm.trans hc
    rwa [advanceOn_of_no_call hc, advanceOn_of_no_call hc']
  | some c =>
    have hc' : w'.calls[j]? = some c := (h.calls j hj).symm.trans hc
    refine ⟨by rw [store_advanceOn hc, store_advanceOn hc', h.store], fun k hk => ?_⟩
    by_cases hkj : k = j
    · rw [hkj, calls_advanceOn hc, calls_advanceOn hc', h.store]
    · rw [calls_advanceOn_of_ne (Ne.symm hkj), calls_advanceOn_of_ne (Ne.symm hkj), h.calls k hk]

/-- What is no step of the call has the same effect without it. -/
theorem AlikeBut.meet (h : AlikeBut i w w') (he : e.outageAt? i = none) :
    AlikeBut i (w.meet e) (w'.meet e) := by
  obtain ⟨j, b, hj, heq⟩ | ⟨f, heq⟩ := meet_cases he
  · rw [heq, heq]
    exact h.advanceOn hj b
  · rw [heq, heq]
    exact ⟨congrArg f h.store, h.calls⟩

/-- A step that leaves the store as it is could as well be left out. -/
theorem AlikeBut.meet_left (h : AlikeBut i w w') {outage : Option String}
    (he : e.outageAt? i = some outage) (hidle : (w.meet e).store = w.store) :
    AlikeBut i (w.meet e) w' := by
  refine ⟨hidle.trans h.store, fun j hj => ?_⟩
  rw [meet_of_outageAt he, calls_advanceOn_of_ne (Ne.symm hj), h.calls j hj]

theorem AlikeBut.pass (h : AlikeBut i w w') (incidents : List Incident)
    (hidle : ∀ v ∈ w.visits i incidents, v.after = v.before) :
    AlikeBut i (w.pass incidents) (w'.pass (incidents.filter fun e => (e.outageAt? i).isNone)) := by
  induction incidents generalizing w w' with
  | nil => exact h
  | cons e rest ih =>
    rw [World.visits, List.forall_mem_append] at hidle
    obtain ⟨hstep, hrest⟩ := hidle
    cases he : e.outageAt? i with
    | none =>
      rw [List.filter_cons_of_pos (by rw [he]; rfl)]
      exact ih (h.meet he) hrest
    | some outage =>
      rw [List.filter_cons_of_neg (by rw [he]; exact Bool.false_ne_true)]
      rw [he] at hstep
      exact ih (h.meet_left he (hstep _ List.mem_cons_self)) hrest

end AlikeBut

end World

/-! ## The course of a call -/

namespace Visit

/-- The step leaves the store as it is. -/
def IsIdle (v : Visit) : Prop := v.after = v.before

def fetch (v : Visit) (c : Call) : Except SyncError DeclarationRecord :=
  Sync.fetch (answering v.outage) c.mrn v.before

def plan (v : Visit) (c : Call) (record : DeclarationRecord) : Except SyncError Plan :=
  Sync.plan (answering v.outage) c.sets c.now c.mrn record v.before

def carryOut (v : Visit) (c : Call) (plan : Plan) : Except SyncError SyncOutcome × Store :=
  Sync.carryOut (answering v.outage) c.mrn plan v.before

end Visit

/-- How far a call has come by its visits: it fetches at the first, plans at the second,
carries out its plan at the third, and has finished once a step fails. -/
inductive Course (c : Call) : List Visit → Progress → Prop where
  | ready : Course c [] .ready
  | fetched {first : Visit} {record : DeclarationRecord} (idle : first.IsIdle)
      (fetched : first.fetch c = .ok record) : Course c [first] (.fetched record)
  | planned {first second : Visit} {record : DeclarationRecord} {plan : Plan}
      (idle : ∀ v ∈ [first, second], v.IsIdle) (fetched : first.fetch c = .ok record)
      (planned : second.plan c record = .ok plan) : Course c [first, second] (.planned plan)
  | notFetched {first : Visit} {rest : List Visit} {e : SyncError}
      (idle : ∀ v ∈ first :: rest, v.IsIdle) (failed : first.fetch c = .error e) :
      Course c (first :: rest) (.finished (.error e))
  | notPlanned {first second : Visit} {rest : List Visit} {record : DeclarationRecord}
      {e : SyncError} (idle : ∀ v ∈ first :: second :: rest, v.IsIdle)
      (fetched : first.fetch c = .ok record) (failed : second.plan c record = .error e) :
      Course c (first :: second :: rest) (.finished (.error e))
  | carriedOut {first second third : Visit} {rest : List Visit} {record : DeclarationRecord}
      {plan : Plan} {result : Except SyncError SyncOutcome}
      (idle : ∀ v ∈ first :: second :: rest, v.IsIdle)
      (fetched : first.fetch c = .ok record) (planned : second.plan c record = .ok plan)
      (carriedOut : third.carryOut c plan = (result, third.after)) :
      Course c (first :: second :: third :: rest) (.finished result)

section Course

variable {c : Call} {visits : List Visit} {p : Progress}

/-- One more step. -/
theorem Course.step (h : Course c visits p) {v : Visit}
    (hv : v.after = ({ c with progress := p }.advanceOn (answering v.outage) v.before).2) :
    Course c (visits ++ [v])
      ({ c with progress := p }.advanceOn (answering v.outage) v.before).1 := by
  -- what is idle stays idle with one more idle step
  have hone : v.IsIdle → ∀ u ∈ [v], u.IsIdle := fun hidle => by simpa using hidle
  cases h with
  | ready =>
    simp only [Call.advanceOn] at hv ⊢
    cases hfetch : Sync.fetch (answering v.outage) c.mrn v.before with
    | ok record =>
      have hidle : v.after = v.before := by simpa [hfetch] using hv
      exact .fetched hidle hfetch
    | error e =>
      have hidle : v.after = v.before := by simpa [hfetch] using hv
      exact .notFetched (hone hidle) hfetch
  | @fetched first record idle fetched =>
    simp only [Call.advanceOn] at hv ⊢
    cases hplan : Sync.plan (answering v.outage) c.sets c.now c.mrn record v.before with
    | ok plan =>
      have hidle : v.after = v.before := by simpa [hplan] using hv
      exact .planned (List.forall_mem_cons.mpr ⟨idle, hone hidle⟩) fetched hplan
    | error e =>
      have hidle : v.after = v.before := by simpa [hplan] using hv
      exact .notPlanned (List.forall_mem_cons.mpr ⟨idle, hone hidle⟩) fetched hplan
  | planned idle fetched planned => exact .carriedOut idle fetched planned (Prod.ext rfl hv.symm)
  | notFetched idle failed =>
    exact .notFetched (List.forall_mem_append.mpr ⟨idle, hone hv⟩) failed
  | notPlanned idle fetched failed =>
    exact .notPlanned (List.forall_mem_append.mpr ⟨idle, hone hv⟩) fetched failed
  | carriedOut idle fetched planned carriedOut =>
    exact .carriedOut (List.forall_mem_append.mpr ⟨idle, hone hv⟩) fetched planned carriedOut

/-- The call keeps to its course in every run. -/
theorem World.course_pass {w : World} {i : Nat} (hc : w.calls[i]? = some { c with progress := p })
    (h : Course c visits p) (incidents : List Incident) :
    ∃ p', (w.pass incidents).calls[i]? = some { c with progress := p' } ∧
      Course c (visits ++ w.visits i incidents) p' := by
  induction incidents generalizing w visits p with
  | nil => exact ⟨p, hc, by rwa [World.visits, List.append_nil]⟩
  | cons e rest ih =>
    rw [World.visits, ← List.append_assoc]
    cases he : e.outageAt? i with
    | none =>
      rw [Option.map_none, Option.toList_none, List.append_nil]
      exact ih ((calls_meet_of_outageAt he).trans hc) h
    | some outage =>
      have hcall := calls_advanceOn hc (answering outage)
      have hstore := store_advanceOn hc (answering outage)
      rw [← meet_of_outageAt he] at hcall hstore
      exact ih hcall (h.step (v := ⟨outage, w.store, (w.meet e).store⟩) hstore)

end Course

/-! ## The steps of a call -/

namespace Visit

section

variable {v : Visit} {c : Call} {record : DeclarationRecord}

theorem fetch_of_outage {text : String} (ho : v.outage = some text) :
    v.fetch c = .error (.store (.backend text)) := by
  rw [fetch, ho]
  rfl

theorem fetch_of_answer (ho : v.outage = none) :
    v.fetch c = (v.before.fetch c.mrn).mapError .store := by
  rw [fetch, ho]
  rfl

theorem fetch_of_held (ho : v.outage = none) {h : Holding}
    (hheld : v.before.holdings.get? c.mrn = some h) :
    v.fetch c = .ok ⟨h.declaration, h.declaration.marker?⟩ := by
  rw [fetch_of_answer ho, Store.fetch_of_held hheld]
  rfl

theorem plan_of_outage {text : String} (ho : v.outage = some text) :
    v.plan c record = .error (.store (.backend text)) := by
  rw [Visit.plan, ho]
  rfl

theorem plan_of_answer (ho : v.outage = none) :
    v.plan c record = ((record.declaration.derive c.sets c.now (v.before.list c.mrn)).mapError
      SyncError.derivation).map (Plan.of record) := by
  rw [Visit.plan, ho]
  rfl

theorem plan_of_derive (ho : v.outage = none) {d : Decision}
    (hderive : record.declaration.derive c.sets c.now (v.before.list c.mrn) = .ok d) :
    v.plan c record = .ok (Plan.of record d) := by
  rw [plan_of_answer ho, hderive]
  rfl

end

variable (v : Visit) (c : Call)

theorem fetch_cases :
    (∃ text, v.outage = some text ∧ v.fetch c = .error (.store (.backend text))) ∨
    (v.outage = none ∧ v.before.holdings.get? c.mrn = none ∧
      v.fetch c = .error (.store (.notFound c.mrn))) ∨
    ∃ h, v.outage = none ∧ v.before.holdings.get? c.mrn = some h ∧
      v.fetch c = .ok ⟨h.declaration, h.declaration.marker?⟩ := by
  cases ho : v.outage with
  | some text => exact .inl ⟨text, rfl, fetch_of_outage ho⟩
  | none =>
    cases hheld : v.before.holdings.get? c.mrn with
    | none =>
      refine .inr (.inl ⟨rfl, rfl, ?_⟩)
      rw [fetch_of_answer ho, Store.fetch_of_not_held hheld]
      rfl
    | some h => exact .inr (.inr ⟨h, rfl, rfl, fetch_of_held ho hheld⟩)

theorem plan_cases (record : DeclarationRecord) :
    (∃ text, v.outage = some text ∧ v.plan c record = .error (.store (.backend text))) ∨
    (∃ cause, v.outage = none ∧
      record.declaration.derive c.sets c.now (v.before.list c.mrn) = .error cause ∧
      v.plan c record = .error (.derivation cause)) ∨
    ∃ d, v.outage = none ∧
      record.declaration.derive c.sets c.now (v.before.list c.mrn) = .ok d ∧
      v.plan c record = .ok (Plan.of record d) := by
  cases ho : v.outage with
  | some text => exact .inl ⟨text, rfl, plan_of_outage ho⟩
  | none =>
    cases hderive : record.declaration.derive c.sets c.now (v.before.list c.mrn) with
    | error cause =>
      refine .inr (.inl ⟨cause, rfl, rfl, ?_⟩)
      rw [plan_of_answer ho, hderive]
      rfl
    | ok d => exact .inr (.inr ⟨d, rfl, rfl, plan_of_derive ho hderive⟩)

variable {v c}

theorem of_fetch_ok {record : DeclarationRecord} (h : v.fetch c = .ok record) :
    ∃ held, v.before.holdings.get? c.mrn = some held ∧
      record = ⟨held.declaration, held.declaration.marker?⟩ := by
  obtain ⟨_, -, heq⟩ | ⟨-, -, heq⟩ | ⟨held, -, hheld, heq⟩ := v.fetch_cases c
  · cases heq.symm.trans h
  · cases heq.symm.trans h
  · exact ⟨held, hheld, Except.ok.inj (h.symm.trans heq)⟩

theorem of_plan_ok {record : DeclarationRecord} {plan : Plan} (h : v.plan c record = .ok plan) :
    ∃ d, record.declaration.derive c.sets c.now (v.before.list c.mrn) = .ok d ∧
      plan = Plan.of record d := by
  obtain ⟨_, -, heq⟩ | ⟨_, -, -, heq⟩ | ⟨d, -, hderive, heq⟩ := v.plan_cases c record
  · cases heq.symm.trans h
  · cases heq.symm.trans h
  · exact ⟨d, hderive, Except.ok.inj (h.symm.trans heq)⟩

end Visit

/-- A write as it shows in the store: the decision `d` in place of one with the marker that the
record names, and the record at the end of the log. -/
structure Store.Records (before : Store) (d : Decision) (record : WriteRecord) (after : Store) :
    Prop where
  replaced : ∃ h, before.holdings.get? record.mrn = some h ∧
    h.declaration.marker? = record.previousVersion ∧
    after.holdings.get? record.mrn = some (h.withDecision (some d))
  others : ∀ mrn, mrn ≠ record.mrn → after.holdings.get? mrn = before.holdings.get? mrn
  logged : after.writes = before.writes ++ [record]
  sequence : record.sequence = before.writes.length + 1
  sourceVersion : record.sourceVersion = d.sourceVersion

theorem Store.records_insert {s : Store} {mrn : String} {h : Holding}
    (hheld : s.holdings.get? mrn = some h) (d : Decision) :
    s.Records d ⟨mrn, s.writes.length + 1, h.declaration.marker?, d.sourceVersion⟩
      { holdings := s.holdings.insert mrn (h.withDecision (some d))
        writes := s.writes ++
          [⟨mrn, s.writes.length + 1, h.declaration.marker?, d.sourceVersion⟩] } where
  replaced := ⟨h, hheld, rfl, by rw [Table.get?_insert, if_pos rfl]⟩
  others mrn' hne := by rw [Table.get?_insert, if_neg (Ne.symm hne)]
  logged := rfl
  sequence := rfl
  sourceVersion := rfl

/-- Why a write of a call is not accepted. -/
def Visit.Refuses (v : Visit) (c : Call) (expected : Option String) (e : StoreError) : Prop :=
  (∃ text, v.outage = some text ∧ e = .backend text) ∨
  (v.before.holdings.get? c.mrn = none ∧ e = .notFound c.mrn) ∨
  ∃ h, v.before.holdings.get? c.mrn = some h ∧ h.declaration.marker? ≠ expected ∧
    e = .conflict c.mrn expected h.declaration.marker?

/-- All that the third step of a call can do. -/
theorem Visit.carryOut_cases (v : Visit) (c : Call) (plan : Plan) :
    (∃ d, plan = .keep d ∧ v.carryOut c plan = (.ok (.unchanged d), v.before)) ∨
    (∃ d expected e, plan = .write d expected ∧ v.Refuses c expected e ∧
      v.carryOut c plan = (.error (.store e), v.before)) ∨
    ∃ d record after, plan = .write d record.previousVersion ∧ record.mrn = c.mrn ∧
      v.before.Records d record after ∧ v.carryOut c plan = (.ok (.written d record), after) := by
  rw [Visit.carryOut]
  cases plan with
  | keep d => exact .inl ⟨d, rfl, rfl⟩
  | write d expected =>
    cases ho : v.outage with
    | some text => exact .inr (.inl ⟨d, expected, _, rfl, .inl ⟨text, ho, rfl⟩, rfl⟩)
    | none =>
      obtain ⟨h, hheld, rfl, heq⟩ | ⟨h, hheld, hne, heq⟩ | ⟨hheld, heq⟩ :=
        Store.write_cases v.before c.mrn d expected
      · exact .inr (.inr ⟨d, _, _, rfl, rfl, Store.records_insert hheld d,
          carryOut_write_ok heq⟩)
      · exact .inr (.inl ⟨d, expected, _, rfl, .inr (.inr ⟨h, hheld, hne, rfl⟩),
          carryOut_write_error heq⟩)
      · exact .inr (.inl ⟨d, expected, _, rfl, .inr (.inl ⟨hheld, rfl⟩),
          carryOut_write_error heq⟩)

/-- What a plan means to write is the derived decision, over the marker that was fetched. -/
theorem eq_of_planOf_eq_write {record : DeclarationRecord} {derived d : Decision}
    {expected : Option String} (h : Plan.of record derived = .write d expected) :
    ¬ record.declaration.IsSettled derived ∧ d = derived ∧ expected = record.decisionVersion := by
  obtain ⟨-, heq⟩ | ⟨hnew, heq⟩ := planOf_cases record derived
  · cases heq.symm.trans h
  · cases heq.symm.trans h
    exact ⟨hnew, rfl, rfl⟩

theorem eq_of_planOf_eq_keep {record : DeclarationRecord} {derived d : Decision}
    (h : Plan.of record derived = .keep d) :
    record.declaration.IsSettled derived ∧ d = derived := by
  obtain ⟨hset, heq⟩ | ⟨-, heq⟩ := planOf_cases record derived
  · cases heq.symm.trans h
    exact ⟨hset, rfl⟩
  · cases heq.symm.trans h

/-! ## The effect of a call -/

/-- What a call has done, and why, when it has come as far as `p` by its visits. -/
structure Call.Effect (c : Call) (visits : List Visit) (p : Progress) : Prop where
  /-- It takes three steps at most. -/
  returns : 3 ≤ visits.length → ∃ result, p = .finished result
  /-- Unless it has written, it left every store that it met as it was. -/
  idle : p.hasWritten = false → ∀ v ∈ visits, v.IsIdle
  /-- If it has written, it changed the third store alone: the derived decision replaced one
  that still had the marker that was fetched. -/
  written : ∀ d record, p = .finished (.ok (.written d record)) →
    ∃ first second third rest h, visits = first :: second :: third :: rest ∧
      (∀ v ∈ first :: second :: rest, v.IsIdle) ∧
      first.before.holdings.get? c.mrn = some h ∧
      h.declaration.derive c.sets c.now (second.before.list c.mrn) = .ok d ∧
      record.mrn = c.mrn ∧ record.previousVersion = h.declaration.marker? ∧
      third.before.Records d record third.after
  /-- If it has kept what is stored, that was the same decision when it was fetched. -/
  kept : ∀ d, p = .finished (.ok (.unchanged d)) →
    ∃ first ∈ visits, ∃ second ∈ visits, ∃ h, first.before.holdings.get? c.mrn = some h ∧
      h.declaration.derive c.sets c.now (second.before.list c.mrn) = .ok d ∧
      h.declaration.IsSettled d
  /-- An error says why: the declaration was not held, had no decision, carried another marker
  by the time of the write, or the medium was down. -/
  failed : ∀ e, p = .finished (.error e) →
    (e = .store (.notFound c.mrn) ∧ ∃ v ∈ visits, v.before.holdings.get? c.mrn = none) ∨
    (∃ cause, e = .derivation cause ∧ ∃ first ∈ visits, ∃ second ∈ visits, ∃ h,
      first.before.holdings.get? c.mrn = some h ∧
      h.declaration.derive c.sets c.now (second.before.list c.mrn) = .error cause) ∨
    (∃ first ∈ visits, ∃ third ∈ visits, ∃ h h',
      first.before.holdings.get? c.mrn = some h ∧
      third.before.holdings.get? c.mrn = some h' ∧
      h'.declaration.marker? ≠ h.declaration.marker? ∧
      e = .store (.conflict c.mrn h.declaration.marker? h'.declaration.marker?)) ∨
    ∃ text, e = .store (.backend text) ∧ ∃ v ∈ visits, v.outage = some text
  /-- If it comes to write and another marker is stored by then, it reports both, and what is
  stored stays. -/
  refused : ∀ first second third rest h d h', visits = first :: second :: third :: rest →
    (∀ v ∈ [first, second, third], v.outage = none) →
    first.before.holdings.get? c.mrn = some h →
    h.declaration.derive c.sets c.now (second.before.list c.mrn) = .ok d →
    ¬ h.declaration.IsSettled d →
    third.before.holdings.get? c.mrn = some h' →
    h'.declaration.marker? ≠ h.declaration.marker? →
      p = .finished (.error
        (.store (.conflict c.mrn h.declaration.marker? h'.declaration.marker?))) ∧
      third.after.holdings.get? c.mrn = some h'

namespace Course

variable {c : Call} {visits : List Visit} {p : Progress}

theorem finished_of_length (h : Course c visits p) (hlength : 3 ≤ visits.length) :
    ∃ result, p = .finished result := by
  cases h with
  | ready | fetched | planned => simp at hlength
  | notFetched | notPlanned | carriedOut => exact ⟨_, rfl⟩

theorem forall_isIdle (h : Course c visits p) (hp : p.hasWritten = false) :
    ∀ v ∈ visits, v.IsIdle := by
  cases h with
  | ready => exact List.forall_mem_nil _
  | fetched idle _ => simpa using idle
  | planned idle _ _ => exact idle
  | notFetched idle _ => exact idle
  | notPlanned idle _ _ => exact idle
  | @carriedOut first second third rest record plan result idle _ _ carriedOut =>
    have hthird : third.IsIdle := by
      obtain ⟨d, -, heq⟩ | ⟨d, expected, e, -, -, heq⟩ | ⟨d, record, after, -, -, -, heq⟩ :=
        third.carryOut_cases c plan
      · exact congrArg Prod.snd (carriedOut.symm.trans heq)
      · exact congrArg Prod.snd (carriedOut.symm.trans heq)
      · obtain rfl : result = .ok (.written d record) :=
          congrArg Prod.fst (carriedOut.symm.trans heq)
        cases hp
    rw [List.forall_mem_cons, List.forall_mem_cons] at idle
    obtain ⟨hfirst, hsecond, hrest⟩ := idle
    exact List.forall_mem_cons.mpr ⟨hfirst, List.forall_mem_cons.mpr ⟨hsecond,
      List.forall_mem_cons.mpr ⟨hthird, hrest⟩⟩⟩

theorem of_written {d : Decision} {record : WriteRecord}
    (h : Course c visits (.finished (.ok (.written d record)))) :
    ∃ first second third rest h, visits = first :: second :: third :: rest ∧
      (∀ v ∈ first :: second :: rest, v.IsIdle) ∧
      first.before.holdings.get? c.mrn = some h ∧
      h.declaration.derive c.sets c.now (second.before.list c.mrn) = .ok d ∧
      record.mrn = c.mrn ∧ record.previousVersion = h.declaration.marker? ∧
      third.before.Records d record third.after := by
  cases h with
  | @carriedOut first second third rest fetchedRecord plan _ idle fetched planned carriedOut =>
    obtain ⟨_, -, heq⟩ | ⟨_, _, _, -, -, heq⟩ | ⟨d', record', after, hwrite, hmrn, hrecords, heq⟩ :=
      third.carryOut_cases c plan
    · cases congrArg Prod.fst (carriedOut.symm.trans heq)
    · cases congrArg Prod.fst (carriedOut.symm.trans heq)
    · cases carriedOut.symm.trans heq
      obtain ⟨held, hheld, rfl⟩ := Visit.of_fetch_ok fetched
      obtain ⟨derived, hderive, rfl⟩ := Visit.of_plan_ok planned
      obtain ⟨-, rfl, hversion⟩ := eq_of_planOf_eq_write hwrite
      exact ⟨first, second, third, rest, held, rfl, idle, hheld, hderive, hmrn, hversion,
        hrecords⟩

theorem of_kept {d : Decision} (h : Course c visits (.finished (.ok (.unchanged d)))) :
    ∃ first ∈ visits, ∃ second ∈ visits, ∃ h, first.before.holdings.get? c.mrn = some h ∧
      h.declaration.derive c.sets c.now (second.before.list c.mrn) = .ok d ∧
      h.declaration.IsSettled d := by
  cases h with
  | @carriedOut first second third rest fetchedRecord plan _ idle fetched planned carriedOut =>
    obtain ⟨d', hkeep, heq⟩ | ⟨_, _, _, -, -, heq⟩ | ⟨_, _, _, -, -, -, heq⟩ :=
      third.carryOut_cases c plan
    · obtain rfl : d = d' := by
        cases congrArg Prod.fst (carriedOut.symm.trans heq)
        rfl
      obtain ⟨held, hheld, rfl⟩ := Visit.of_fetch_ok fetched
      obtain ⟨derived, hderive, rfl⟩ := Visit.of_plan_ok planned
      obtain ⟨hset, rfl⟩ := eq_of_planOf_eq_keep hkeep
      exact ⟨first, by simp, second, by simp, held, hheld, hderive, hset⟩
    · cases congrArg Prod.fst (carriedOut.symm.trans heq)
    · cases congrArg Prod.fst (carriedOut.symm.trans heq)

/-- What stands behind an error that a call ends with. -/
theorem of_failed {e : SyncError} (h : Course c visits (.finished (.error e))) :
    (e = .store (.notFound c.mrn) ∧ ∃ v ∈ visits, v.before.holdings.get? c.mrn = none) ∨
    (∃ cause, e = .derivation cause ∧ ∃ first ∈ visits, ∃ second ∈ visits, ∃ h,
      first.before.holdings.get? c.mrn = some h ∧
      h.declaration.derive c.sets c.now (second.before.list c.mrn) = .error cause) ∨
    (∃ first ∈ visits, ∃ third ∈ visits, ∃ h h',
      first.before.holdings.get? c.mrn = some h ∧
      third.before.holdings.get? c.mrn = some h' ∧
      h'.declaration.marker? ≠ h.declaration.marker? ∧
      e = .store (.conflict c.mrn h.declaration.marker? h'.declaration.marker?)) ∨
    ∃ text, e = .store (.backend text) ∧ ∃ v ∈ visits, v.outage = some text := by
  cases h with
  | @notFetched first rest _ idle failed =>
    obtain ⟨text, ho, heq⟩ | ⟨-, hheld, heq⟩ | ⟨_, -, -, heq⟩ := first.fetch_cases c
    · cases heq.symm.trans failed
      exact .inr (.inr (.inr ⟨text, rfl, first, by simp, ho⟩))
    · cases heq.symm.trans failed
      exact .inl ⟨rfl, first, by simp, hheld⟩
    · cases heq.symm.trans failed
  | @notPlanned first second rest record _ idle fetched failed =>
    obtain ⟨held, hheld, rfl⟩ := Visit.of_fetch_ok fetched
    obtain ⟨text, ho, heq⟩ | ⟨cause, -, hderive, heq⟩ | ⟨_, -, -, heq⟩ := second.plan_cases c _
    · cases heq.symm.trans failed
      exact .inr (.inr (.inr ⟨text, rfl, second, by simp, ho⟩))
    · cases heq.symm.trans failed
      exact .inr (.inl ⟨cause, rfl, first, by simp, second, by simp, held, hheld, hderive⟩)
    · cases heq.symm.trans failed
  | @carriedOut first second third rest record plan _ idle fetched planned carriedOut =>
    obtain ⟨held, hheld, rfl⟩ := Visit.of_fetch_ok fetched
    obtain ⟨derived, -, rfl⟩ := Visit.of_plan_ok planned
    obtain ⟨_, -, heq⟩ | ⟨d, expected, cause, hwrite, hrefuses, heq⟩ | ⟨_, _, _, -, -, -, heq⟩ :=
      third.carryOut_cases c _
    · cases congrArg Prod.fst (carriedOut.symm.trans heq)
    · obtain rfl : e = .store cause :=
        Except.error.inj (congrArg Prod.fst (carriedOut.symm.trans heq))
      obtain ⟨-, -, rfl⟩ := eq_of_planOf_eq_write hwrite
      obtain ⟨text, ho, rfl⟩ | ⟨hnone, rfl⟩ | ⟨h', hheld', hne, rfl⟩ := hrefuses
      · exact .inr (.inr (.inr ⟨text, rfl, third, by simp, ho⟩))
      · exact .inl ⟨rfl, third, by simp, hnone⟩
      · exact .inr (.inr (.inl ⟨first, by simp, third, by simp, held, h', hheld, hheld', hne, rfl⟩))
    · cases congrArg Prod.fst (carriedOut.symm.trans heq)

theorem of_conflict {first second third : Visit} {rest : List Visit} {h h' : Holding}
    {d : Decision} (hcourse : Course c (first :: second :: third :: rest) p)
    (ho : ∀ v ∈ [first, second, third], v.outage = none)
    (hheld : first.before.holdings.get? c.mrn = some h)
    (hderive : h.declaration.derive c.sets c.now (second.before.list c.mrn) = .ok d)
    (hnew : ¬ h.declaration.IsSettled d) (hheld' : third.before.holdings.get? c.mrn = some h')
    (hne : h'.declaration.marker? ≠ h.declaration.marker?) :
    p = .finished (.error
        (.store (.conflict c.mrn h.declaration.marker? h'.declaration.marker?))) ∧
      third.after.holdings.get? c.mrn = some h' := by
  have hfetch := Visit.fetch_of_held (ho first (by simp)) hheld
  have hplan : second.plan c ⟨h.declaration, h.declaration.marker?⟩ =
      .ok (Plan.of ⟨h.declaration, h.declaration.marker?⟩ d) :=
    Visit.plan_of_derive (ho second (by simp)) hderive
  have hwrite : Plan.of ⟨h.declaration, h.declaration.marker?⟩ d =
      .write d h.declaration.marker? := by
    obtain ⟨hset, -⟩ | ⟨-, heq⟩ := planOf_cases ⟨h.declaration, h.declaration.marker?⟩ d
    · exact absurd hset hnew
    · exact heq
  rw [hwrite] at hplan
  have hcarry : third.carryOut c (.write d h.declaration.marker?) =
      (.error (.store (.conflict c.mrn h.declaration.marker? h'.declaration.marker?)),
        third.before) := by
    rw [Visit.carryOut, ho third (by simp)]
    exact carryOut_write_error (write_of_marker_ne hheld' hne)
  cases hcourse with
  | notFetched _ failed => cases hfetch.symm.trans failed
  | notPlanned _ fetched failed =>
    cases hfetch.symm.trans fetched
    cases hplan.symm.trans failed
  | carriedOut _ fetched planned carriedOut =>
    cases hfetch.symm.trans fetched
    cases hplan.symm.trans planned
    have hresult := carriedOut.symm.trans hcarry
    have hafter : third.after = third.before := congrArg Prod.snd hresult
    exact ⟨congrArg (Progress.finished ·.1) hresult, by rw [hafter, hheld']⟩

end Course

/-- Whatever happens around a call, all that it does shows in its own steps: it changes
nothing, or one decision and the log. A call that has not written might as well not have been
made. -/
theorem World.effect_of_call {w : World} {i : Nat} {c : Call} (hc : w.calls[i]? = some c)
    (hready : c.progress = .ready) (incidents : List Incident) :
    ∃ p, (w.pass incidents).calls[i]? = some { c with progress := p } ∧
      c.Effect (w.visits i incidents) p ∧
      (p.hasWritten = false → (w.pass incidents).store =
        (w.pass (incidents.filter fun e => (e.outageAt? i).isNone)).store) := by
  have hc' : w.calls[i]? = some { c with progress := .ready } := by rw [hc, ← hready]
  obtain ⟨p, hp, hcourse⟩ := World.course_pass hc' .ready incidents
  rw [List.nil_append] at hcourse
  refine ⟨p, hp, {
    returns := hcourse.finished_of_length
    idle := hcourse.forall_isIdle
    written := fun d record hwritten => Course.of_written (hwritten ▸ hcourse)
    kept := fun d hkept => Course.of_kept (hkept ▸ hcourse)
    failed := fun e he => Course.of_failed (he ▸ hcourse)
    refused := fun _ _ _ _ _ _ _ hvisits => Course.of_conflict (hvisits ▸ hcourse) },
    fun hp => ?_⟩
  have halike : World.AlikeBut i w w := ⟨rfl, fun _ _ => rfl⟩
  exact (halike.pass incidents (hcourse.forall_isIdle hp)).store

/-- A decision that another writer stores. -/
def rivalDecision : Decision := { Decision.blank with sourceVersion := some "a" }

/-- The rival writes between the second and the third step of a call. -/
def rivalWrite : List Incident := [.event (.advance 0), .event (.advance 0),
  .event (.write undecided.mrn rivalDecision none), .event (.advance 0)]

/-- The call reports the rival's marker, and the rival's decision stays. -/
theorem rival_write_reported : ∃ c, (rivals.pass rivalWrite).calls[0]? = some c ∧
    c.progress = .finished (.error (.store (.conflict undecided.mrn none (some "a")))) ∧
    (rivals.pass rivalWrite).store.holdings.get? undecided.mrn =
      some ⟨undecided.withDecision (some rivalDecision), []⟩ := by
  obtain ⟨p, hcall, heffect, -⟩ := World.effect_of_call (w := rivals) (i := 0) rfl rfl rivalWrite
  have hderive := undecided.derive_standard .standard .epoch []
  have hnew : ∀ d, ¬ undecided.IsSettled d := by
    rintro d ⟨stored, hstored, -⟩
    cases hstored
  have hrival : (undecided.withDecision (some rivalDecision)).marker? ≠ undecided.marker? := by
    decide
  have hreported := heffect.refused _ _ _ [] ⟨undecided, []⟩ _
    ⟨undecided.withDecision (some rivalDecision), []⟩ rfl (by simp) rfl hderive (hnew _) rfl hrival
  exact ⟨_, hcall, hreported⟩

end BorderControl
