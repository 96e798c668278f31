import BorderControl.Proofs.History

/-!
# Who writes first

A `Writer` fetches a declaration, decides on what it fetched, and writes its decision over
the version that it found. An `Office` is any number of writers that take their steps in any
order (`Turn`), with whatever else is asked of the store in between.

A store knows a decision by its marker alone, and a decision without a marker looks like
none. So a write that expects no version is accepted while no marked decision is stored
(`Store.write_none_ok_iff`). Of the writes to a declaration the first expects no version,
and each later one that does follows an unmarked decision (`Continues.countP_previous`).
`Office.first_writes` bounds by that number the writers that had found no decision at all:
it is at most one if all decisions are marked but perhaps the last, and two writers of
unmarked decisions both get through (`both_write_first`).
-/

namespace BorderControl

/-! ## Writers -/

/-- How far a writer has come. -/
inductive Writer.Stage where
  | ready
  | failed (e : StoreError)
  | fetched (record : DeclarationRecord)
  | finished (record : DeclarationRecord) (result : Except StoreError WriteRecord)

/-- A writer of one decision. -/
structure Writer where
  mrn : String
  decides : DeclarationRecord → Decision
  stage : Writer.Stage

namespace Writer

/-- The next step of the writer, and the store after it. -/
def advance (c : Writer) (s : Store) : Stage × Store :=
  match c.stage with
  | .ready =>
    match s.fetch c.mrn with
    | .ok record => (.fetched record, s)
    | .error e => (.failed e, s)
  | .fetched record =>
    let (result, s) := s.write c.mrn (c.decides record) record.decisionVersion
    (.finished record result, s)
  | stage => (stage, s)

/-- The writer found no decision under the MRN, and its own one was accepted. -/
def wroteFirst (mrn : String) (c : Writer) : Bool :=
  match c.stage with
  | .finished record (.ok _) => c.mrn == mrn && record.declaration.decision.isNone
  | _ => false

/-- The writer goes by the marker of the decision that it found. -/
def Faithful (c : Writer) : Prop :=
  match c.stage with
  | .fetched record => record.decisionVersion = record.declaration.marker?
  | _ => True

end Writer

/-- Writers, and the store that they share. -/
structure Office where
  writers : List Writer
  store : Store

/-- What happens next: the writer at a place takes its next step, or someone else changes
the store. -/
inductive Turn where
  | advance (i : Nat)
  | other (op : Operation)

/-- The turn inserts a declaration under the MRN. -/
def Turn.Inserts (mrn : String) : Turn → Prop
  | advance _ => False
  | other op => op.Inserts mrn

namespace Office

def step (o : Office) : Turn → Office
  | .advance i =>
    match o.writers[i]? with
    | some c =>
      let (stage, store) := c.advance o.store
      ⟨o.writers.set i { c with stage := stage }, store⟩
    | none => o
  | .other op => { o with store := o.store.apply op }

def run (o : Office) (turns : List Turn) : Office := turns.foldl step o

/-- How many writers found no decision under the MRN and had their own accepted. -/
def firstWriters (o : Office) (mrn : String) : Nat := o.writers.countP (·.wroteFirst mrn)

end Office

/-! ## Writes that expect no version -/

/-- The writes under an MRN that expected no version. -/
def Store.firstWrites (s : Store) (mrn : String) : Nat :=
  (s.writesOf mrn).countP (·.previousVersion.isNone)

/-- A write that expects no version is accepted exactly where no marked decision is stored. -/
theorem Store.write_none_ok_iff {s : Store} {mrn : String} {d : Decision} :
    (∃ record, (s.write mrn d none).1 = .ok record) ↔ ∃ h, s.holdings.get? mrn = some h ∧
      ∀ stored, h.declaration.decision = some stored → stored.sourceVersion = none := by
  rw [exists_write_ok_iff]
  simp only [Declaration.marker?, Option.bind_eq_none_iff]

section Continues

variable {version : Option String} {r : WriteRecord} {rs : List WriteRecord}

/-- Of writes that continue each other the first expects the version that was there, and the
others what the one before them wrote. -/
theorem Continues.countP_previous (h : Continues version (r :: rs)) :
    (r :: rs).countP (·.previousVersion.isNone) =
      version.isNone.toNat + (r :: rs).dropLast.countP (·.sourceVersion.isNone) := by
  induction rs generalizing version r with
  | nil =>
    obtain ⟨rfl, -⟩ := h
    cases hprevious : r.previousVersion <;> simp [hprevious]
  | cons r' rs ih =>
    obtain ⟨rfl, h⟩ := h
    rw [List.countP_cons, ih h, List.dropLast_cons_cons, List.countP_cons]
    cases r.previousVersion <;> cases r.sourceVersion <;> simp <;> omega

theorem countP_unmarked_eq_zero_iff : rs.countP (·.sourceVersion.isNone) = 0 ↔
    ∀ r ∈ rs, r.sourceVersion.isSome = true := by
  simp [List.countP_eq_zero, ← Option.isSome_iff_ne_none]

theorem Continues.countP_le_one (h : Continues version rs)
    (hmarked : ∀ r ∈ rs.dropLast, r.sourceVersion.isSome = true) :
    rs.countP (·.previousVersion.isNone) ≤ 1 := by
  cases rs with
  | nil => exact Nat.zero_le 1
  | cons r rs =>
    rw [h.countP_previous, countP_unmarked_eq_zero_iff.mpr hmarked, Nat.add_zero]
    exact Bool.toNat_le version.isNone

theorem Continues.countP_le_one_iff (h : Continues none rs) :
    rs.countP (·.previousVersion.isNone) ≤ 1 ↔
      ∀ r ∈ rs.dropLast, r.sourceVersion.isSome = true := by
  refine ⟨fun hle => ?_, h.countP_le_one⟩
  cases rs with
  | nil => simp
  | cons r rs =>
    have hcount := h.countP_previous
    rw [Option.isNone_none, Bool.toNat_true] at hcount
    exact countP_unmarked_eq_zero_iff.mp (by omega)

end Continues

/-- The log only grows. -/
theorem Store.firstWrites_le_after (s : Store) (mrn : String) (ops : List Operation) :
    s.firstWrites mrn ≤ (s.after ops).firstWrites mrn := by
  rw [firstWrites, firstWrites, writesOf_after, List.countP_append]
  exact Nat.le_add_right _ _

/-! ## Steps of a writer -/

namespace Writer

variable {c : Writer} {s : Store}

theorem advance_fetched {record : DeclarationRecord} (hstage : c.stage = .fetched record) :
    c.advance s = (.finished record (s.write c.mrn (c.decides record) record.decisionVersion).1,
      (s.write c.mrn (c.decides record) record.decisionVersion).2) := by
  simp only [advance, hstage]

/-- A step of a writer is at most a write. -/
theorem exists_operations (c : Writer) (s : Store) (mrn : String) :
    ∃ ops, (∀ op ∈ ops, ¬ Operation.Inserts mrn op) ∧ (c.advance s).2 = s.after ops := by
  cases hstage : c.stage with
  | fetched record =>
    refine ⟨[.write c.mrn (c.decides record) record.decisionVersion], ?_, ?_⟩
    · intro op hop
      obtain rfl := List.mem_singleton.mp hop
      exact id
    · rw [advance_fetched hstage]
      rfl
  | ready =>
    refine ⟨[], by simp, ?_⟩
    cases hfetch : s.fetch c.mrn <;> simp only [advance, hstage, hfetch] <;> rfl
  | failed e => exact ⟨[], by simp, by simp only [advance, hstage]; rfl⟩
  | finished record result => exact ⟨[], by simp, by simp only [advance, hstage]; rfl⟩

theorem faithful_advance (c : Writer) (s : Store) :
    ({ c with stage := (c.advance s).1 } : Writer).Faithful := by
  cases hstage : c.stage with
  | ready =>
    cases hheld : s.holdings.get? c.mrn with
    | some h => simp only [Faithful, advance, hstage, Store.fetch_of_held hheld]
    | none => simp only [Faithful, advance, hstage, Store.fetch_of_not_held hheld]
  | fetched record => simp only [Faithful, advance_fetched hstage]
  | failed e => simp only [Faithful, advance, hstage]
  | finished record result => simp only [Faithful, advance, hstage]

/-- A writer that found no decision and has its own one accepted has written over no version. -/
theorem firstWrites_advance (hc : c.Faithful) (s : Store) (mrn : String) :
    (({ c with stage := (c.advance s).1 } : Writer).wroteFirst mrn).toNat + s.firstWrites mrn ≤
      (c.wroteFirst mrn).toNat + (c.advance s).2.firstWrites mrn := by
  -- The log never shrinks, so only a new first writer has to be found there.
  have hmono : s.firstWrites mrn ≤ (c.advance s).2.firstWrites mrn := by
    obtain ⟨ops, -, hops⟩ := c.exists_operations s mrn
    exact hops ▸ s.firstWrites_le_after mrn ops
  cases hstage : c.stage with
  | fetched record =>
    rw [advance_fetched hstage] at hmono ⊢
    cases hresult : (s.write c.mrn (c.decides record) record.decisionVersion).1 with
    | error e => simpa [wroteFirst, hstage, hresult] using hmono
    | ok written =>
      by_cases hfirst : c.mrn = mrn ∧ record.declaration.decision = none
      · obtain ⟨rfl, hnone⟩ := hfirst
        have hversion : record.decisionVersion = none := by
          rw [Faithful, hstage] at hc
          rw [hc, Declaration.marker?, hnone, Option.bind_none]
        obtain ⟨-, hwritten, hwrites⟩ := Store.write_ok hresult
        have hlog : (s.write c.mrn (c.decides record) record.decisionVersion).2.firstWrites c.mrn =
            s.firstWrites c.mrn + 1 := by
          rw [Store.firstWrites, Store.writesOf, hwrites, hwritten, hversion]
          simp [Store.firstWrites, Store.writesOf]
        simp [wroteFirst, hstage, hnone, hlog, Nat.add_comm]
      · have hnot : (c.mrn == mrn && record.declaration.decision.isNone) = false := by
          simpa [Bool.and_eq_false_iff, ← Option.isSome_iff_ne_none] using hfirst
        simpa [wroteFirst, hstage, hnot] using hmono
  | ready =>
    cases hfetch : s.fetch c.mrn <;> simp [wroteFirst, advance, hstage, hfetch]
  | failed e => simp [wroteFirst, advance, hstage]
  | finished record result => simp [wroteFirst, advance, hstage]

end Writer

/-! ## Turns -/

namespace Office

variable {o : Office} {mrn : String} {n : Nat} {turns : List Turn}

/-- A turn is at most an operation on the store. -/
theorem exists_operations_step {t : Turn} (ht : ¬ t.Inserts mrn) :
    ∃ ops, (∀ op ∈ ops, ¬ Operation.Inserts mrn op) ∧ (o.step t).store = o.store.after ops := by
  cases t with
  | other op =>
    refine ⟨[op], fun op' hop => ?_, rfl⟩
    obtain rfl := List.mem_singleton.mp hop
    exact ht
  | advance i =>
    cases hi : o.writers[i]? with
    | some c => simpa only [step, hi] using c.exists_operations o.store mrn
    | none => exact ⟨[], by simp, by simp only [step, hi]; rfl⟩

theorem exists_operations_run (hturns : ∀ t ∈ turns, ¬ t.Inserts mrn) :
    ∃ ops, (∀ op ∈ ops, ¬ Operation.Inserts mrn op) ∧
      (o.run turns).store = o.store.after ops := by
  induction turns generalizing o with
  | nil => exact ⟨[], by simp, rfl⟩
  | cons t turns ih =>
    obtain ⟨ht, hturns⟩ := List.forall_mem_cons.mp hturns
    obtain ⟨ops, hops, hstep⟩ := exists_operations_step (o := o) ht
    obtain ⟨ops', hops', hrun⟩ := ih (o := o.step t) hturns
    refine ⟨ops ++ ops', ?_, ?_⟩
    · intro op hop
      exact (List.mem_append.mp hop).elim (hops op) (hops' op)
    · rw [Store.after_append, ← hstep]
      exact hrun

/-- Each of the first writers is in the log, and `n` other writes are. -/
structure Balanced (o : Office) (mrn : String) (n : Nat) : Prop where
  faithful : ∀ c ∈ o.writers, c.Faithful
  covered : o.firstWriters mrn + n ≤ o.store.firstWrites mrn

theorem Balanced.step (h : o.Balanced mrn n) (t : Turn) : (o.step t).Balanced mrn n := by
  cases t with
  | other op =>
    exact ⟨h.faithful, Nat.le_trans h.covered (o.store.firstWrites_le_after mrn [op])⟩
  | advance i =>
    cases hi : o.writers[i]? with
    | none => simpa only [Office.step, hi] using h
    | some c =>
      have hc : c.Faithful := h.faithful c (List.mem_of_getElem? hi)
      simp only [Office.step, hi]
      constructor
      · intro c' hc'
        rcases List.mem_or_eq_of_mem_set hc' with hmem | rfl
        · exact h.faithful c' hmem
        · exact c.faithful_advance o.store
      · have hcount := World.countP_set_add (·.wroteFirst mrn)
          { c with stage := (c.advance o.store).1 } hi
        have hstep := Writer.firstWrites_advance hc o.store mrn
        have hcovered := h.covered
        simp only [firstWriters] at hcovered ⊢
        omega

theorem Balanced.run (h : o.Balanced mrn n) (turns : List Turn) :
    (o.run turns).Balanced mrn n := by
  induction turns generalizing o with
  | nil => exact h
  | cons t turns ih => exact ih (h.step t)

theorem balanced_of_ready (hready : ∀ c ∈ o.writers, c.stage = .ready) :
    o.Balanced mrn (o.store.firstWrites mrn) := by
  refine ⟨fun c hc => by simp only [Writer.Faithful, hready c hc], ?_⟩
  have hnone : o.firstWriters mrn = 0 :=
    List.countP_eq_zero.mpr fun c hc => by simp [Writer.wroteFirst, hready c hc]
  exact Nat.le_of_eq (by rw [hnone, Nat.zero_add])

/-- However writers take their turns, at most as many that found no decision have theirs
accepted as writes are accepted that expect no version. Where no decision was stored at
first, this is at most one write exactly if every accepted decision but the last has a
marker. A write that expects no version is accepted exactly while no marked decision is
stored. -/
theorem first_writes (hready : ∀ c ∈ o.writers, c.stage = .ready)
    (hturns : ∀ t ∈ turns, ¬ t.Inserts mrn) :
    ∃ added, (o.run turns).store.writesOf mrn = o.store.writesOf mrn ++ added ∧
      (o.run turns).firstWriters mrn ≤ added.countP (·.previousVersion.isNone) ∧
      ((∀ h, o.store.holdings.get? mrn = some h → h.declaration.decision = none) →
        (added.countP (·.previousVersion.isNone) ≤ 1 ↔
          ∀ r ∈ added.dropLast, r.sourceVersion.isSome = true)) ∧
      ((∀ r ∈ added.dropLast, r.sourceVersion.isSome = true) →
        (o.run turns).firstWriters mrn ≤ 1) ∧
      ∀ d, (∃ record, ((o.run turns).store.write mrn d none).1 = .ok record) ↔
        ∃ h, (o.run turns).store.holdings.get? mrn = some h ∧
          ∀ stored, h.declaration.decision = some stored → stored.sourceVersion = none := by
  obtain ⟨ops, hops, hstore⟩ := exists_operations_run (o := o) hturns
  have hcontinues := o.store.continues_acceptedFor hops
  have hlog := o.store.writesOf_after mrn ops
  generalize (o.store.acceptedFor mrn ops).map (·.record) = added at hcontinues hlog
  have hbalanced : o.Balanced mrn (o.store.firstWrites mrn) := balanced_of_ready hready
  have hcovered := (hbalanced.run turns).covered
  simp only [Store.firstWrites, hstore, hlog, List.countP_append] at hcovered
  have hfirst : (o.run turns).firstWriters mrn ≤ added.countP (·.previousVersion.isNone) := by
    omega
  refine ⟨added, hstore ▸ hlog, hfirst, fun hnone => ?_, fun hmarked => ?_,
    fun d => Store.write_none_ok_iff⟩
  · have hversion : (o.store.holdings.get? mrn).bind (·.declaration.marker?) = none := by
      refine Option.bind_eq_none_iff.mpr fun h hheld => ?_
      rw [Declaration.marker?, hnone h hheld, Option.bind_none]
    rw [hversion] at hcontinues
    exact hcontinues.countP_le_one_iff
  · exact Nat.le_trans hfirst (hcontinues.countP_le_one hmarked)

/-- Two writers of decisions with the given markers, and a declaration without a decision. -/
def pair (first second : Option String) : Office where
  writers := [⟨undecided.mrn, fun _ => { Decision.blank with sourceVersion := first }, .ready⟩,
    ⟨undecided.mrn, fun _ => { Decision.blank with sourceVersion := second }, .ready⟩]
  store := Store.empty.insert undecided []

/-- Both writers fetch, and then both write. -/
def turnsOfPair : List Turn := [.advance 0, .advance 1, .advance 0, .advance 1]

theorem ready_of_mem_pair (first second : Option String) :
    ∀ c ∈ (pair first second).writers, c.stage = .ready := by
  simp [pair]

theorem not_inserts_of_mem_turnsOfPair (mrn : String) : ∀ t ∈ turnsOfPair, ¬ t.Inserts mrn := by
  simp [turnsOfPair, Turn.Inserts]

/-- The second of two writers is refused if the first one writes a marked decision. -/
theorem one_writes_first :
    ((pair (some "first") none).run turnsOfPair).firstWriters undecided.mrn ≤ 1 := by
  obtain ⟨added, hlog, -, -, hfirst, -⟩ :=
    first_writes (ready_of_mem_pair (some "first") none) (not_inserts_of_mem_turnsOfPair _)
  have hadded : added = [⟨undecided.mrn, 1, none, some "first"⟩] := by
    have hrun : ((pair (some "first") none).run turnsOfPair).store.writesOf undecided.mrn =
        [⟨undecided.mrn, 1, none, some "first"⟩] := by decide +kernel
    exact (hrun.symm.trans hlog).symm
  exact hfirst (by simp [hadded])

/-- Neither of two writers is refused if the first one writes a decision without a marker:
the second one writes over it. -/
theorem both_write_first :
    (∀ c ∈ (pair none none).writers, c.stage = .ready) ∧
      (∀ t ∈ turnsOfPair, ¬ t.Inserts undecided.mrn) ∧
      (((pair none none).run (turnsOfPair.take 3)).store.holdings.get? undecided.mrn).bind
        (·.declaration.decision) = some .blank ∧
      ((pair none none).run turnsOfPair).firstWriters undecided.mrn = 2 :=
  ⟨ready_of_mem_pair none none, not_inserts_of_mem_turnsOfPair undecided.mrn,
    by decide +kernel, by decide +kernel⟩

end Office

end BorderControl
