import BorderControl.Proofs.PriorityTable

/-!
# Which rules a chain consults

A rule is handed a case together with what stands behind it, and asks that for an outcome or
not (`Rule.handle`). `Chain.visit` resolves a case in this way and notes each rule as it is
handed the case. The outcome is that of `Chain.resolve`, and the notes are the rules of
`Chain.entered` (`Chain.visit_eq`).

A chain is consulted up to the first rule that answers (`Chain.entered_cases`). What stands
further back has no say, and in front of a rule the outcome is made of that of the rest alone
(`Chain.resolve_append_congr`), so that a rule that defers can stand anywhere.

No rule answers with the unknown outcome or with the release of a consignment, a fixed answer
apart (`Rule.not_isProvisional_of_answer`). These are left over where no rule answers, so they
mean that all rules were consulted. `Chain.consultation` puts this together.
-/

namespace BorderControl

/-! ## A chain at work -/

/-- The rule is handed the case, and `rest` is the chain behind it, on the same case. -/
def Rule.handle (r : Rule) (c : Case) (rest : StateM (List Rule) Outcome) :
    StateM (List Rule) Outcome := do
  modify (· ++ [r])
  match r.step c with
  | .answer o => return o
  | .defer => rest
  | .unlessVetoed o =>
    let later ← rest
    return if later = .unknown then o else later

namespace Chain

/-- Resolves the case, and notes the rules that it is handed to. -/
def visit : Chain → Case → StateM (List Rule) Outcome
  | [], _ => return .unknown
  | r :: rest, c => r.handle c (visit rest c)

variable {chain front rest rest' : Chain} {r : Rule} {c : Case} {o : Outcome}

/-- Every rule is noted once, when its turn comes, and none after one that answers. -/
theorem visit_eq (c : Case) : ∀ (chain : Chain) (seen : List Rule),
    (chain.visit c).run seen = (chain.resolve c, seen ++ chain.entered c)
  | [], seen => by rw [entered, List.append_nil]; rfl
  | r :: rest, seen => by
    have ih := visit_eq c rest (seen ++ [r])
    rw [List.append_assoc, List.singleton_append] at ih
    simp only [visit, Rule.handle, resolve, entered, StateT.run_bind, StateT.run_modify]
    cases r.step c with
    | answer o => rfl
    | defer => exact ih
    | unlessVetoed o =>
      simp only [pure_bind, StateT.run_bind, ih]
      rfl

/-! ## Up to the first answer -/

/-- The rule leaves the case to those behind it, for the time being. -/
def GoesOn (r : Rule) (c : Case) : Prop := ∀ o, r.step c ≠ .answer o

theorem entered_of_answer (h : r.step c = .answer o) : entered (r :: rest) c = [r] := by
  rw [entered, h]

theorem entered_of_goesOn (h : GoesOn r c) : entered (r :: rest) c = r :: entered rest c := by
  rw [entered]
  cases hs : r.step c with
  | answer o => exact absurd hs (h o)
  | defer => rfl
  | unlessVetoed o => rfl

theorem entered_append (h : ∀ r ∈ front, GoesOn r c) :
    entered (front ++ rest) c = front ++ entered rest c := by
  induction front with
  | nil => rfl
  | cons r front ih =>
    obtain ⟨hr, hfront⟩ := List.forall_mem_cons.mp h
    rw [List.cons_append, entered_of_goesOn hr, ih hfront, List.cons_append]

/-- Either all rules are consulted, or those up to one that answers. -/
theorem entered_cases (c : Case) : ∀ chain : Chain,
    entered chain c = chain ∨ ∃ front r rest o, chain = front ++ r :: rest ∧
      (∀ r ∈ front, GoesOn r c) ∧ r.step c = .answer o ∧ entered chain c = front ++ [r]
  | [] => Or.inl rfl
  | r :: rest => by
    cases hs : r.step c with
    | answer o =>
      exact Or.inr ⟨[], r, rest, o, rfl, List.forall_mem_nil _, hs, entered_of_answer hs⟩
    | defer | unlessVetoed _ =>
      have hr : GoesOn r c := fun o h => by rw [hs] at h; cases h
      rcases entered_cases c rest with hall | ⟨front, r', rest', o, rfl, hfront, ho, hentered⟩
      · exact Or.inl (by rw [entered_of_goesOn hr, hall])
      · exact Or.inr ⟨r :: front, r', rest', o, rfl, List.forall_mem_cons.mpr ⟨hr, hfront⟩, ho,
          by rw [List.cons_append, entered_of_goesOn hr, hentered]⟩

theorem entered_isPrefix (c : Case) (chain : Chain) : entered chain c <+: chain := by
  rcases entered_cases c chain with hall | ⟨front, r, rest, -, rfl, -, -, hentered⟩
  · exact ⟨[], by rw [hall, List.append_nil]⟩
  · exact ⟨rest, by rw [hentered, List.append_assoc, List.singleton_append]⟩

/-! ## Outcomes -/

/-- In front of a chain only its outcome counts. -/
theorem resolve_append_congr (h : resolve rest c = resolve rest' c) :
    ∀ front : Chain, resolve (front ++ rest) c = resolve (front ++ rest') c
  | [] => h
  | r :: front => by
    rw [List.cons_append, List.cons_append, resolve, resolve, resolve_append_congr h front]

/-- Behind the rule that answers nothing counts. -/
theorem stops_at_answer (hfront : ∀ r ∈ front, GoesOn r c) (hr : r.step c = .answer o)
    (rest rest' : Chain) :
    resolve (front ++ r :: rest) c = resolve (front ++ r :: rest') c ∧
      entered (front ++ r :: rest) c = entered (front ++ r :: rest') c := by
  constructor
  · exact resolve_append_congr (by rw [resolve_of_answer hr, resolve_of_answer hr]) front
  · rw [entered_append hfront, entered_append hfront, entered_of_answer hr, entered_of_answer hr]

/-- An answer other than the unknown outcome is passed on by the rules in front. -/
theorem resolve_append_of_answer (hfront : ∀ r ∈ front, GoesOn r c) (ho : o ≠ .unknown)
    (hrest : resolve rest c = o) : resolve (front ++ rest) c = o := by
  induction front with
  | nil => exact hrest
  | cons r front ih =>
    obtain ⟨hr, hfront⟩ := List.forall_mem_cons.mp hfront
    have ih := ih hfront
    rw [List.cons_append]
    cases hs : r.step c with
    | answer o' => exact absurd hs (hr o')
    | defer => rw [resolve_of_defer hs, ih]
    | unlessVetoed o' => rw [resolve_of_unlessVetoed hs, ih, if_neg ho]

end Chain

/-! ## What is left over where no rule answers -/

/-- The unknown outcome, or the release of a consignment: it holds until a rule answers. -/
def Outcome.IsProvisional (o : Outcome) : Prop :=
  o = .unknown ∨ o.decisionCode ∈ [.c03, .c05, .c06, .e03]

theorem Outcome.Stops.not_isProvisional {o : Outcome} (h : o.Stops) : ¬ o.IsProvisional := by
  rintro (hunknown | hrelease)
  · exact h.2 hunknown
  · have hcode : o.decisionCode.isRelease = true := by
      simp only [List.mem_cons, List.not_mem_nil, or_false] at hrelease
      rcases hrelease with heq | heq | heq | heq <;> rw [heq] <;> rfl
    rw [h.1] at hcode
    cases hcode

theorem Outcome.stops_plain {code : DecisionCode} (h : code.isRelease = false) :
    (plain code).Stops :=
  ⟨h, fun hunknown => by cases hunknown⟩

namespace Rule

/-- The rule answers every case alike. -/
def isFixed : Rule → Bool
  | fixed _ => true
  | _ => false

variable {r : Rule} {c : Case} {o : Outcome}

theorem stops_of_verdictStep {release? : Notification.Verdict → Option DecisionCode}
    (h : verdictStep release? c = .answer o) : o.Stops := by
  unfold verdictStep at h
  split at h
  · cases h
  · cases h
    exact Outcome.stops_plain (isRelease_refusalCode _)
  · split at h <;> cases h

theorem stops_of_statusStep {status : Option Notification.Status}
    (h : statusStep status = .answer o) : o.Stops := by
  unfold statusStep at h
  split at h <;> cases h <;> exact Outcome.stops_plain rfl

theorem not_isProvisional_fishingOutcome (control : Option Notification.FishingControl) :
    ¬ (fishingOutcome control).IsProvisional := by
  unfold fishingOutcome Outcome.IsProvisional
  split
  · decide
  · split
    · decide
    · split <;> decide

/-- Only a fixed answer can be the unknown outcome or the release of a consignment. -/
theorem not_isProvisional_of_answer (hr : r.isFixed = false) (h : r.step c = .answer o) :
    ¬ o.IsProvisional := by
  by_cases hguard : r.isGuard = true
  · rcases step_isGuarded hguard c with hdefer | ⟨o', ho', hstops⟩
    · rw [hdefer] at h
      cases h
    · rw [h] at ho'
      cases ho'
      exact hstops.not_isProvisional
  cases r with
  | chedADecision | chedPDecision | chedDDecision =>
    exact (stops_of_verdictStep h).not_isProvisional
  | chedPPDecision => exact (stops_of_statusStep h).not_isProvisional
  | fishingControl =>
    simp only [step] at h
    split at h
    · cases h
      exact not_isProvisional_fishingOutcome _
    · cases h
  | fixed o => cases hr
  | _ => exact absurd rfl hguard

end Rule

namespace Chain

/-- So such an outcome means that every rule was consulted. -/
theorem entered_of_isProvisional {chain : Chain} {c : Case}
    (hchain : ∀ r ∈ chain, r.isFixed = false) (h : (chain.resolve c).IsProvisional) :
    chain.entered c = chain := by
  rcases entered_cases c chain with hall | ⟨front, r, rest, o, rfl, hfront, ho, -⟩
  · exact hall
  · have hfinal := Rule.not_isProvisional_of_answer (hchain r (by simp)) ho
    rw [resolve_append_of_answer hfront (fun heq => hfinal (Or.inl heq)) (resolve_of_answer ho)]
      at h
    exact absurd h hfinal

/-- What a chain does with a case. It hands the case to its rules in order, to each once, and
not to those behind a certain one; where it does not get to the end, other rules behind that
place make no difference. A rule that defers on the case makes no difference to the outcome
at any place. The unknown outcome and the release of a consignment are never given without
all rules having been consulted, unless one of them is a fixed answer. -/
theorem consultation (chain : Chain) (c : Case) :
    (chain.visit c).run [] = (chain.resolve c, chain.entered c) ∧
    chain.entered c <+: chain ∧
    (∀ k, (chain.entered c).length = k → k < chain.length → ∀ others : Chain,
      Chain.resolve (chain.take k ++ others) c = chain.resolve c ∧
        Chain.entered (chain.take k ++ others) c = chain.entered c) ∧
    (∀ r : Rule, r.step c = .defer → ∀ k,
      Chain.resolve (chain.take k ++ r :: chain.drop k) c = chain.resolve c) ∧
    ((∀ r ∈ chain, r.isFixed = false) →
      chain.resolve c = .unknown ∨ (chain.resolve c).decisionCode ∈ [.c03, .c05, .c06, .e03] →
        chain.entered c = chain) := by
  refine ⟨visit_eq c chain [], entered_isPrefix c chain, ?_, ?_, entered_of_isProvisional⟩
  case refine_1 =>
    rintro k rfl hproper others
    rcases entered_cases c chain with hall | ⟨front, r, rest, o, rfl, hfront, ho, hentered⟩
    · rw [hall] at hproper
      exact absurd hproper (Nat.lt_irrefl _)
    · have htake : (front ++ r :: rest).take (entered (front ++ r :: rest) c).length =
          front ++ [r] := by
        rw [← hentered]
        exact (List.prefix_iff_eq_take.mp (entered_isPrefix c _)).symm
      rw [htake, List.append_assoc, List.singleton_append]
      exact stops_at_answer hfront ho others rest
  case refine_2 =>
    intro r hr k
    calc resolve (chain.take k ++ r :: chain.drop k) c
        = resolve (chain.take k ++ chain.drop k) c :=
          resolve_append_congr (resolve_of_defer hr) _
      _ = chain.resolve c := by rw [List.take_append_drop]

end Chain

/-- Where their weight is compared the heavy cattle are held, whatever rules follow, and where
it is not they are released once the other rules were consulted. -/
theorem heavyCattle_consultation :
    (∀ others : Chain, Chain.resolve ([.chedADecision, .weightTolerance .ten] ++ others)
      heavyCattle = .detailed .h01 .e86) ∧
    Chain.resolve [.chedADecision, .pass, .commodityCode] heavyCattle = .plain .c03 ∧
    Chain.entered [.chedADecision, .pass, .commodityCode] heavyCattle =
      [.chedADecision, .pass, .commodityCode] := by
  obtain ⟨-, -, hbehind, -, -⟩ :=
    Chain.consultation [.chedADecision, .weightTolerance .ten, .pass] heavyCattle
  obtain ⟨-, -, -, hinsert, -⟩ := Chain.consultation [.chedADecision, .commodityCode] heavyCattle
  obtain ⟨-, -, -, -, hall'⟩ :=
    Chain.consultation [.chedADecision, .pass, .commodityCode] heavyCattle
  have hrelease : Chain.resolve [.chedADecision, .pass, .commodityCode] heavyCattle =
      .plain .c03 := by
    refine (hinsert .pass rfl 1).trans ?_
    decide +kernel
  refine ⟨fun others => ?_, hrelease, ?_⟩
  · refine (hbehind 2 (by decide +kernel) (by decide) others).1.trans ?_
    decide +kernel
  · exact hall' (by decide) (Or.inr (by rw [hrelease]; decide))

end BorderControl
