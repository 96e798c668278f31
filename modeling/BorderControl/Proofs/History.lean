import BorderControl.Proofs.Interleaving

/-!
# What a store tells of its past

A store opens empty or on a dossier, and from then on declarations are inserted and
decisions written (`Operation`). `Store.accepted` are the writes that it accepts on the
way. `apply_of_held` says all that one operation can do to a holding, and `after_of_held`
carries it over operations that do not insert under its MRN: the holding keeps what was
inserted but for the decision of the last accepted write (`latest`), and each of these
writes replaces the version of the one before it (`Continues`).

`Chronicle` is what a store has to say at any time about its log, about the writes it would
accept, and about every declaration that it holds. `Opening.chronicle` proves it for every
opening and all operations.
-/

namespace BorderControl

/-! ## Operations -/

/-- A change to a store that someone asks for. -/
inductive Operation where
  | insert (d : Declaration) (notifications : List Notification)
  | write (mrn : String) (d : Decision) (expected : Option String)

namespace Operation

/-- The MRN that the operation is about. -/
def mrn : Operation → String
  | insert d _ => d.mrn
  | write mrn _ _ => mrn

/-- The operation inserts a declaration under the MRN. -/
def Inserts (mrn : String) : Operation → Prop
  | insert d _ => d.mrn = mrn
  | write .. => False

end Operation

/-- A write that was accepted, and its record. -/
structure Accepted where
  decision : Decision
  record : WriteRecord

namespace Store

def apply (s : Store) : Operation → Store
  | .insert d notifications => s.insert d notifications
  | .write mrn d expected => (s.write mrn d expected).2

def after (s : Store) (ops : List Operation) : Store := ops.foldl apply s

theorem after_cons (s : Store) (op : Operation) (ops : List Operation) :
    s.after (op :: ops) = (s.apply op).after ops := rfl

theorem after_append (s : Store) (ops ops' : List Operation) :
    s.after (ops ++ ops') = (s.after ops).after ops' := List.foldl_append

/-- The operation, if it is a write that the store accepts. -/
def accepted? (s : Store) : Operation → Option Accepted
  | .insert .. => none
  | .write mrn d expected =>
    match (s.write mrn d expected).1 with
    | .ok record => some ⟨d, record⟩
    | .error _ => none

/-- The writes that the store accepts, one operation after the other. -/
def accepted (s : Store) : List Operation → List Accepted
  | [] => []
  | op :: ops => (s.accepted? op).toList ++ (s.apply op).accepted ops

/-- The accepted writes under an MRN. -/
def acceptedFor (s : Store) (mrn : String) (ops : List Operation) : List Accepted :=
  (s.accepted ops).filter (·.record.mrn == mrn)

end Store

/-- The decision of the last of some writes, or the one that was there before them. -/
def latest (before : Option Decision) (writes : List Accepted) : Option Decision :=
  match writes.getLast? with
  | some a => some a.decision
  | none => before

theorem latest_cons (before : Option Decision) (a : Accepted) (writes : List Accepted) :
    latest before (a :: writes) = latest (some a.decision) writes := by
  cases h : writes.getLast? <;> simp [latest, List.getLast?_cons, h]

/-- Each record replaces the version that the one before it wrote, the first one `version`. -/
def Continues (version : Option String) : List WriteRecord → Prop
  | [] => True
  | r :: rs => r.previousVersion = version ∧ Continues r.sourceVersion rs

theorem Continues.middle {version : Option String} {front back : List WriteRecord}
    {r r' : WriteRecord} (h : Continues version (front ++ r :: r' :: back)) :
    r'.previousVersion = r.sourceVersion := by
  induction front generalizing version with
  | nil => exact h.2.1
  | cons r₀ front ih => exact ih h.2

/-- The holding with another decision on its declaration. -/
def Holding.withDecision (h : Holding) (d : Option Decision) : Holding :=
  { h with declaration := h.declaration.withDecision d }

/-! ## One write -/

namespace Store

variable {s : Store} {mrn : String} {h : Holding} {op : Operation} {ops : List Operation}

/-- All that a write can do: it is accepted where it names the stored marker, and otherwise
refused and nothing changes. -/
theorem write_cases (s : Store) (mrn : String) (d : Decision) (expected : Option String) :
    (∃ h, s.holdings.get? mrn = some h ∧ h.declaration.marker? = expected ∧
      s.write mrn d expected = (.ok ⟨mrn, s.writes.length + 1, expected, d.sourceVersion⟩,
        { holdings := s.holdings.insert mrn (h.withDecision (some d))
          writes := s.writes ++ [⟨mrn, s.writes.length + 1, expected, d.sourceVersion⟩] })) ∨
    (∃ h, s.holdings.get? mrn = some h ∧ h.declaration.marker? ≠ expected ∧
      s.write mrn d expected = (.error (.conflict mrn expected h.declaration.marker?), s)) ∨
    (s.holdings.get? mrn = none ∧ s.write mrn d expected = (.error (.notFound mrn), s)) := by
  cases hheld : s.holdings.get? mrn with
  | none => exact .inr (.inr ⟨rfl, by simp only [write, hheld]⟩)
  | some h =>
    by_cases hmarker : h.declaration.marker? = expected
    · subst hmarker
      refine .inl ⟨h, rfl, rfl, ?_⟩
      simp only [write, hheld, ne_eq, not_true_eq_false, if_false]
      rfl
    · exact .inr (.inl ⟨h, rfl, hmarker, write_of_marker_ne hheld hmarker⟩)

/-- An accepted write names the stored marker, gets the next number and is logged. -/
theorem write_ok {d : Decision} {expected : Option String} {record : WriteRecord}
    (hok : (s.write mrn d expected).1 = .ok record) :
    (∃ h, s.holdings.get? mrn = some h ∧ h.declaration.marker? = expected) ∧
      record = ⟨mrn, s.writes.length + 1, expected, d.sourceVersion⟩ ∧
      (s.write mrn d expected).2.writes = s.writes ++ [record] := by
  obtain ⟨h, hheld, hmarker, heq⟩ | ⟨h, -, -, heq⟩ | ⟨-, heq⟩ := write_cases s mrn d expected
  · rw [heq, Except.ok.injEq] at hok
    subst hok
    exact ⟨⟨h, hheld, hmarker⟩, rfl, by rw [heq]⟩
  · rw [heq] at hok
    cases hok
  · rw [heq] at hok
    cases hok

/-- A write is accepted exactly if it names the stored marker. -/
theorem exists_write_ok_iff {d : Decision} {expected : Option String} :
    (∃ record, (s.write mrn d expected).1 = .ok record) ↔
      ∃ h, s.holdings.get? mrn = some h ∧ h.declaration.marker? = expected := by
  refine ⟨fun ⟨_, hok⟩ => (write_ok hok).1, fun ⟨h, hheld, hmarker⟩ => ?_⟩
  obtain ⟨record, -, heq⟩ := write_of_marker (d := d) hheld
  exact ⟨record, by rw [← hmarker, heq]⟩

/-- A refused write leaves the store as it is. -/
theorem write_error {d : Decision} {expected : Option String} {e : StoreError}
    (herror : (s.write mrn d expected).1 = .error e) :
    (s.write mrn d expected).2 = s ∧
      ((∃ h, s.holdings.get? mrn = some h ∧ h.declaration.marker? ≠ expected ∧
          e = .conflict mrn expected h.declaration.marker?) ∨
        s.holdings.get? mrn = none ∧ e = .notFound mrn) := by
  obtain ⟨h, -, -, heq⟩ | ⟨h, hheld, hmarker, heq⟩ | ⟨hheld, heq⟩ := write_cases s mrn d expected
  · rw [heq] at herror
    cases herror
  · rw [heq, Except.error.injEq] at herror
    exact ⟨by rw [heq], .inl ⟨h, hheld, hmarker, herror.symm⟩⟩
  · rw [heq, Except.error.injEq] at herror
    exact ⟨by rw [heq], .inr ⟨hheld, herror.symm⟩⟩

/-! ## One operation -/

theorem accepted?_eq_some_iff {a : Accepted} : s.accepted? op = some a ↔
    ∃ mrn expected, op = .write mrn a.decision expected ∧
      (s.write mrn a.decision expected).1 = .ok a.record := by
  constructor
  · intro ha
    cases op with
    | insert d notifications => cases ha
    | write mrn d expected =>
      cases hresult : (s.write mrn d expected).1 with
      | ok record =>
        simp only [accepted?, hresult, Option.some.injEq] at ha
        exact ha ▸ ⟨mrn, expected, rfl, hresult⟩
      | error e => simp [accepted?, hresult] at ha
  · rintro ⟨mrn, expected, rfl, hok⟩
    simp only [accepted?, hok]

theorem mrn_of_accepted? {a : Accepted} (ha : s.accepted? op = some a) :
    a.record.mrn = op.mrn := by
  obtain ⟨mrn, expected, rfl, hok⟩ := accepted?_eq_some_iff.mp ha
  rw [(write_ok hok).2.1]
  rfl

/-- An operation adds to the log the write that it is, if that is accepted. -/
theorem writes_apply (s : Store) (op : Operation) :
    (s.apply op).writes = s.writes ++ (s.accepted? op).toList.map (·.record) := by
  cases op with
  | insert d notifications => exact (List.append_nil _).symm
  | write mrn d expected =>
    cases hresult : (s.write mrn d expected).1 with
    | ok record => simp [accepted?, apply, hresult, (write_ok hresult).2.2]
    | error e => simp [accepted?, apply, hresult, (write_error hresult).1]

/-- An operation changes no holding under another MRN. -/
theorem get?_apply_of_ne (hne : op.mrn ≠ mrn) :
    (s.apply op).holdings.get? mrn = s.holdings.get? mrn := by
  cases op with
  | insert d notifications => exact get?_insert_of_ne hne notifications
  | write mrn' d expected => exact (write_of_ne hne d expected).1

/-- All that an operation can do to a holding, unless it inserts under its MRN: put there
the decision of a write that replaces the stored version, or nothing. -/
theorem apply_of_held (hheld : s.holdings.get? mrn = some h) (hop : ¬ op.Inserts mrn) :
    (∃ a, s.accepted? op = some a ∧ a.record.mrn = mrn ∧
      a.record.previousVersion = h.declaration.marker? ∧
      a.record.sourceVersion = a.decision.sourceVersion ∧
      (s.apply op).holdings.get? mrn = some (h.withDecision (some a.decision))) ∨
    ((∀ a, s.accepted? op = some a → a.record.mrn ≠ mrn) ∧
      (s.apply op).holdings.get? mrn = some h) := by
  by_cases hmrn : op.mrn = mrn
  · cases op with
    | insert d notifications => exact absurd hmrn hop
    | write mrn' d expected =>
      obtain rfl : mrn' = mrn := hmrn
      obtain ⟨h', hheld', rfl, heq⟩ | ⟨h', -, -, heq⟩ | ⟨hnone, -⟩ :=
        write_cases s mrn' d expected
      · obtain rfl : h' = h := Option.some.inj (hheld'.symm.trans hheld)
        refine .inl ⟨⟨d, _⟩, accepted?_eq_some_iff.mpr ⟨_, _, rfl, congrArg Prod.fst heq⟩,
          rfl, rfl, rfl, ?_⟩
        rw [apply, heq, Table.get?_insert, if_pos rfl]
      · refine .inr ⟨fun a ha => ?_, by rw [apply, heq, hheld]⟩
        simp [accepted?, heq] at ha
      · rw [hheld] at hnone
        cases hnone
  · refine .inr ⟨fun a ha => ?_, (get?_apply_of_ne hmrn).trans hheld⟩
    rwa [mrn_of_accepted? ha]

/-- Nothing but an insertion brings a declaration into the store. -/
theorem apply_of_not_held (hheld : s.holdings.get? mrn = none) (hop : ¬ op.Inserts mrn) :
    (∀ a, s.accepted? op = some a → a.record.mrn ≠ mrn) ∧
      (s.apply op).holdings.get? mrn = none := by
  by_cases hmrn : op.mrn = mrn
  · cases op with
    | insert d notifications => exact absurd hmrn hop
    | write mrn' d expected =>
      obtain rfl : mrn' = mrn := hmrn
      have heq : s.write mrn' d expected = (.error (.notFound mrn'), s) := by
        simp only [write, hheld]
      refine ⟨fun a ha => ?_, by rw [apply, heq, hheld]⟩
      simp [accepted?, heq] at ha
  · refine ⟨fun a ha => ?_, (get?_apply_of_ne hmrn).trans hheld⟩
    rwa [mrn_of_accepted? ha]

/-! ## All operations -/

theorem acceptedFor_cons (s : Store) (mrn : String) (op : Operation) (ops : List Operation) :
    s.acceptedFor mrn (op :: ops) =
      (s.accepted? op).toList.filter (·.record.mrn == mrn) ++ (s.apply op).acceptedFor mrn ops :=
  List.filter_append ..

theorem acceptedFor_cons_of_some {a : Accepted} (ha : s.accepted? op = some a)
    (hmrn : a.record.mrn = mrn) :
    s.acceptedFor mrn (op :: ops) = a :: (s.apply op).acceptedFor mrn ops := by
  simp [acceptedFor_cons, ha, hmrn]

theorem acceptedFor_cons_of_ne (hne : ∀ a, s.accepted? op = some a → a.record.mrn ≠ mrn) :
    s.acceptedFor mrn (op :: ops) = (s.apply op).acceptedFor mrn ops := by
  cases ha : s.accepted? op with
  | none => simp [acceptedFor_cons, ha]
  | some a => simp [acceptedFor_cons, ha, hne a ha]

/-- The log grows by the accepted writes. -/
theorem writes_after (s : Store) (ops : List Operation) :
    (s.after ops).writes = s.writes ++ (s.accepted ops).map (·.record) := by
  induction ops generalizing s with
  | nil => simp [after, accepted]
  | cons op ops ih =>
    rw [after_cons, ih, writes_apply, accepted, List.map_append, List.append_assoc]

theorem writesOf_after (s : Store) (mrn : String) (ops : List Operation) :
    (s.after ops).writesOf mrn = s.writesOf mrn ++ (s.acceptedFor mrn ops).map (·.record) := by
  rw [writesOf, writes_after, List.filter_append, List.filter_map]
  rfl

/-- Writes are numbered from one. -/
def Numbered (s : Store) : Prop :=
  s.writes.map (·.sequence) = List.range' 1 s.writes.length

theorem Numbered.apply (hs : s.Numbered) (op : Operation) : (s.apply op).Numbered := by
  rw [Numbered, writes_apply]
  cases ha : s.accepted? op with
  | none => simpa [Numbered] using hs
  | some a =>
    obtain ⟨mrn, expected, -, hok⟩ := accepted?_eq_some_iff.mp ha
    have hsequence : a.record.sequence = 1 + 1 * s.writes.length := by
      rw [(write_ok hok).2.1, Nat.one_mul, Nat.add_comm]
    rw [Option.toList_some, List.map_singleton, List.map_append, List.map_singleton,
      List.length_append, List.length_singleton, List.range'_concat, hsequence, ← hs]

theorem Numbered.after (hs : s.Numbered) (ops : List Operation) : (s.after ops).Numbered := by
  induction ops generalizing s with
  | nil => exact hs
  | cons op ops ih => exact ih (hs.apply op)

/-- Until it is inserted anew, a declaration keeps all but its decision, which is that of
the last accepted write, and each accepted write replaces the version of the one before. -/
theorem after_of_held (hheld : s.holdings.get? mrn = some h)
    (hops : ∀ op ∈ ops, ¬ op.Inserts mrn) :
    (s.after ops).holdings.get? mrn =
        some (h.withDecision (latest h.declaration.decision (s.acceptedFor mrn ops))) ∧
      Continues h.declaration.marker? ((s.acceptedFor mrn ops).map (·.record)) := by
  induction ops generalizing s h with
  | nil => exact ⟨hheld, trivial⟩
  | cons op ops ih =>
    obtain ⟨hop, hops⟩ := List.forall_mem_cons.mp hops
    obtain ⟨a, ha, hmrn, hprevious, hsource, hget⟩ | ⟨hne, hget⟩ := apply_of_held hheld hop
    -- An accepted write leaves its own decision to the operations that follow.
    · obtain ⟨hlatest, hcontinues⟩ := ih hget hops
      rw [acceptedFor_cons_of_some ha hmrn, latest_cons]
      exact ⟨hlatest, hprevious, hsource ▸ hcontinues⟩
    · rw [acceptedFor_cons_of_ne hne]
      exact ih hget hops

theorem after_of_not_held (hheld : s.holdings.get? mrn = none)
    (hops : ∀ op ∈ ops, ¬ op.Inserts mrn) :
    (s.after ops).holdings.get? mrn = none ∧ s.acceptedFor mrn ops = [] := by
  induction ops generalizing s with
  | nil => exact ⟨hheld, rfl⟩
  | cons op ops ih =>
    obtain ⟨hop, hops⟩ := List.forall_mem_cons.mp hops
    obtain ⟨hne, hget⟩ := apply_of_not_held hheld hop
    rw [acceptedFor_cons_of_ne hne]
    exact ih hget hops

/-- Writes under an MRN that is not inserted anew continue what is stored under it. -/
theorem continues_acceptedFor (s : Store) (hops : ∀ op ∈ ops, ¬ op.Inserts mrn) :
    Continues ((s.holdings.get? mrn).bind (·.declaration.marker?))
      ((s.acceptedFor mrn ops).map (·.record)) := by
  cases hheld : s.holdings.get? mrn with
  | some h => exact (after_of_held hheld hops).2
  | none =>
    rw [(after_of_not_held hheld hops).2]
    trivial

theorem fetch_of_held (hheld : s.holdings.get? mrn = some h) :
    s.fetch mrn = .ok ⟨h.declaration, h.declaration.marker?⟩ := by
  simp only [fetch, hheld]

theorem fetch_of_not_held (hheld : s.holdings.get? mrn = none) :
    s.fetch mrn = .error (.notFound mrn) := by
  simp only [fetch, hheld]

end Store

/-! ## Chronicles -/

/-- How a store comes into being. -/
inductive Opening where
  | new
  | seed (dossier : Dossier)

namespace Opening

def store : Opening → Store
  | new => .empty
  | seed dossier => .ofDossier dossier

/-- The insertions that an opening stands for. -/
def inserts : Opening → List Operation
  | new => []
  | seed dossier => dossier.declarations.map (.insert · dossier.notifications)

theorem store_eq : (o : Opening) → o.store = Store.empty.after o.inserts
  | new => rfl
  | seed dossier => by rw [inserts, Store.after, List.foldl_map]; rfl

end Opening

/-- What a store with the given history has to say. -/
structure Chronicle (history : List Operation) (s : Store) : Prop where
  /-- The log has the accepted writes. -/
  logged : s.writes = (Store.empty.accepted history).map (·.record)
  numbered : s.writes.map (·.sequence) = List.range' 1 s.writes.length
  kept : ∀ ops, s.writes <+: (s.after ops).writes
  accepts : ∀ mrn d expected, (∃ record, (s.write mrn d expected).1 = .ok record) ↔
    ∃ h, s.holdings.get? mrn = some h ∧ h.declaration.marker? = expected
  /-- An accepted write gets the next number. -/
  accepted : ∀ mrn d expected record, (s.write mrn d expected).1 = .ok record →
    record = ⟨mrn, s.writes.length + 1, expected, d.sourceVersion⟩ ∧
      (s.write mrn d expected).2.writes = s.writes ++ [record]
  /-- A refused write leaves no trace. -/
  refused : ∀ mrn d expected e, (s.write mrn d expected).1 = .error e →
    (s.write mrn d expected).2 = s ∧
      ((∃ h, s.holdings.get? mrn = some h ∧ h.declaration.marker? ≠ expected ∧
          e = .conflict mrn expected h.declaration.marker?) ∨
        s.holdings.get? mrn = none ∧ e = .notFound mrn)
  /-- A declaration is held as it was inserted last, with the decision written last. -/
  current : ∀ before d notifications since,
    history = before ++ .insert d notifications :: since →
    (∀ op ∈ since, ¬ op.Inserts d.mrn) →
    ∃ stored, stored = latest d.decision
        ((Store.empty.after (before ++ [.insert d notifications])).acceptedFor d.mrn since) ∧
      s.holdings.get? d.mrn = some ⟨d.withDecision stored, notifications⟩ ∧
      s.fetch d.mrn = .ok ⟨d.withDecision stored, stored.bind (·.sourceVersion)⟩
  unknown : ∀ mrn, (∀ op ∈ history, ¬ op.Inserts mrn) →
    s.holdings.get? mrn = none ∧ s.fetch mrn = .error (.notFound mrn)
  /-- Writes with no insertion between them follow on from each other. -/
  continued : ∀ mrn ops, (∀ op ∈ ops, ¬ op.Inserts mrn) → ∀ front r r' back,
    (s.after ops).writesOf mrn = s.writesOf mrn ++ (front ++ r :: r' :: back) →
    r'.previousVersion = r.sourceVersion
  /-- An operation is of no concern to other declarations. -/
  apart : ∀ (op : Operation) mrn, op.mrn ≠ mrn →
    (s.apply op).holdings.get? mrn = s.holdings.get? mrn

/-- Whatever happens to a store from its opening on, its log and its declarations tell of
it: accepted writes are logged with ascending numbers, refused ones leave no trace, and the
stored decision is the one that was written last. -/
theorem Opening.chronicle (o : Opening) (ops : List Operation) :
    Chronicle (o.inserts ++ ops) (o.store.after ops) := by
  rw [o.store_eq, ← Store.after_append]
  generalize o.inserts ++ ops = history
  have hnumbered : Store.empty.Numbered := rfl
  constructor
  case logged => exact (Store.writes_after .empty history).trans (List.nil_append _)
  case numbered => exact hnumbered.after history
  case kept =>
    intro ops
    rw [Store.writes_after _ ops]
    exact List.prefix_append ..
  case accepts => exact fun mrn d expected => Store.exists_write_ok_iff
  case accepted => exact fun mrn d expected record hok => (Store.write_ok hok).2
  case refused => exact fun mrn d expected e herror => Store.write_error herror
  case current =>
    rintro before d notifications since rfl hsince
    -- What was there before the last insertion is gone with it.
    have hheld : (Store.empty.after (before ++ [.insert d notifications])).holdings.get? d.mrn =
        some ⟨d, notifications⟩ := by
      rw [Store.after_append]
      exact (Table.get?_insert ..).trans (if_pos rfl)
    have hget := (Store.after_of_held hheld hsince).1
    rw [← Store.after_append, ← List.append_cons] at hget
    exact ⟨_, rfl, hget, Store.fetch_of_held hget⟩
  case unknown =>
    intro mrn hhistory
    have hget := (Store.after_of_not_held (s := .empty) rfl hhistory).1
    exact ⟨hget, Store.fetch_of_not_held hget⟩
  case continued =>
    intro mrn ops hops front r r' back heq
    have hcontinues := Store.continues_acceptedFor (Store.empty.after history) hops
    rw [Store.writesOf_after, List.append_cancel_left_eq] at heq
    rw [heq] at hcontinues
    exact hcontinues.middle
  case apart => exact fun op mrn hne => Store.get?_apply_of_ne hne

/-- A refused write between two accepted ones leaves no gap in the log. -/
example : (Store.empty.after [.insert undecided [],
      .write undecided.mrn { Decision.blank with sourceVersion := some "a" } none,
      .write undecided.mrn { Decision.blank with sourceVersion := some "b" } none,
      .write undecided.mrn { Decision.blank with sourceVersion := some "c" } (some "a")]).writes =
    [⟨undecided.mrn, 1, none, some "a"⟩, ⟨undecided.mrn, 2, some "a", some "c"⟩] := by
  decide +kernel

end BorderControl
