import BorderControl.Proofs.SameDecision

/-!
# The order of results

Results are sorted by document before they are compared, and a document may have several
results: one for each check that it answers and for each notification that it is linked
to. Sorting leaves those in their order. So decisions whose results differ in their order
alone are the same exactly if, for every document, the results on it agree in the order
in which each decision has them (`Decision.sameAs_iff_of_perm`). With one result to a
document the order does not matter; with two checks on one document it does
(`reordered_checks_differ`).
-/

namespace BorderControl

/-! ## Groups -/

/-- Lists with the same keys place by place are related place by place exactly if they
are so within every key. -/
theorem forall₂_iff_groups {α κ : Type} [BEq κ] [LawfulBEq κ] {key : α → κ}
    {R : α → α → Prop} : ∀ {xs ys : List α}, xs.map key = ys.map key →
      (List.Forall₂ R xs ys ↔
        ∀ k, List.Forall₂ R (xs.filter (key · == k)) (ys.filter (key · == k)))
  | [], [], _ => by simp
  | [], _ :: _, h => by cases h
  | _ :: _, [], h => by cases h
  | x :: xs, y :: ys, h => by
    obtain ⟨hkey, hrest⟩ := List.cons.inj h
    have ih := forall₂_iff_groups (R := R) hrest
    -- the heads stand in the group of their key and in no other one
    have hown : ∀ k, key x = k →
        (List.Forall₂ R ((x :: xs).filter (key · == k)) ((y :: ys).filter (key · == k)) ↔
          R x y ∧ List.Forall₂ R (xs.filter (key · == k)) (ys.filter (key · == k))) := by
      intro k hk
      rw [List.filter_cons_of_pos (by simp [hk]), List.filter_cons_of_pos (by simp [← hkey, hk]),
        List.forall₂_cons]
    have hother : ∀ k, key x ≠ k →
        (List.Forall₂ R ((x :: xs).filter (key · == k)) ((y :: ys).filter (key · == k)) ↔
          List.Forall₂ R (xs.filter (key · == k)) (ys.filter (key · == k))) := by
      intro k hk
      rw [List.filter_cons_of_neg (by simpa using hk),
        List.filter_cons_of_neg (by simpa [← hkey] using hk)]
    rw [List.forall₂_cons, ih]
    constructor
    · rintro ⟨hxy, hgroups⟩ k
      by_cases hk : key x = k
      · exact (hown k hk).mpr ⟨hxy, hgroups k⟩
      · exact (hother k hk).mpr (hgroups k)
    · intro hgroups
      refine ⟨((hown _ rfl).mp (hgroups _)).1, fun k => ?_⟩
      by_cases hk : key x = k
      · exact ((hown k hk).mp (hgroups k)).2
      · exact (hother k hk).mp (hgroups k)

theorem forall₂_of_forall_mem {α : Type} {R : α → α → Prop} {xs ys : List α}
    (hlength : xs.length = ys.length) (h : ∀ x ∈ xs, ∀ y ∈ ys, R x y) :
    List.Forall₂ R xs ys :=
  List.forall₂_iff_zip.mpr ⟨hlength, fun hmem =>
    h _ (List.of_mem_zip hmem).1 _ (List.of_mem_zip hmem).2⟩

/-! ## Documents in order -/

/-- The order of documents, as results are sorted by it. -/
def documentOrder (p q : Option String × Option String) : Bool :=
  if p.1 = q.1 then optionLe p.2 q.2 else optionLe p.1 q.1

theorem documentOrder_antisymm {p q : Option String × Option String}
    (hpq : documentOrder p q = true) (hqp : documentOrder q p = true) : p = q := by
  unfold documentOrder at hpq hqp
  by_cases h : p.1 = q.1
  · rw [if_pos h] at hpq
    rw [if_pos h.symm] at hqp
    exact Prod.ext h (optionLe_antisymm hpq hqp)
  · rw [if_neg h] at hpq
    rw [if_neg (Ne.symm h)] at hqp
    exact absurd (optionLe_antisymm hpq hqp) h

theorem pairwise_map_document (results : List Result) :
    ((sortBy Result.documentLe results).map Result.document).Pairwise
      fun p q => documentOrder p q = true :=
  List.pairwise_map.mpr (pairwise_sortBy Result.isRanking_documentLe results)

/-- Sorting brings the documents of reordered results into one order. -/
theorem map_document_sortBy {results results' : List Result} (h : results.Perm results') :
    (sortBy Result.documentLe results).map Result.document =
      (sortBy Result.documentLe results').map Result.document := by
  have hsorted := (perm_sortBy Result.documentLe results).trans
    (h.trans (perm_sortBy Result.documentLe results').symm)
  exact List.Perm.eq_of_pairwise (fun _ _ _ _ => documentOrder_antisymm)
    (pairwise_map_document results) (pairwise_map_document results') (hsorted.map _)

/-! ## Results on one document -/

/-- The results on a document. -/
def onDocument (document : Option String × Option String) (results : List Result) :
    List Result :=
  results.filter (·.document == document)

/-- Results on one document stay in their order. -/
theorem onDocument_sortBy (document : Option String × Option String) (results : List Result) :
    onDocument document (sortBy Result.documentLe results) = onDocument document results := by
  rw [onDocument, filter_sortBy Result.isRanking_documentLe]
  refine sortBy_of_pairwise (List.pairwise_of_forall_mem_list fun a ha b hb => ?_)
  have hda := (List.mem_filter.mp ha).2
  have hdb := (List.mem_filter.mp hb).2
  rw [beq_iff_eq] at hda hdb
  exact Result.documentLe_of_document_eq (hda.trans hdb.symm)

section Perm

variable {results results' : List Result}

/-- Reordered results match exactly if those on every document agree in their order. -/
theorem resultsMatch_iff_of_perm (h : results.Perm results') :
    resultsMatch results results' = true ↔ ∀ document,
      List.Forall₂ (fun r r' => Result.agrees r r' = true) (onDocument document results)
        (onDocument document results') := by
  rw [resultsMatch, pairwiseAgree_iff, forall₂_iff_groups (map_document_sortBy h)]
  refine forall_congr' fun document => ?_
  rw [← onDocument_sortBy document results, ← onDocument_sortBy document results']
  exact Iff.rfl

/-- Reordered results match if those on one document all agree. -/
theorem resultsMatch_of_perm (h : results.Perm results')
    (hagree : ∀ r ∈ results, ∀ r' ∈ results, r.document = r'.document → r.agrees r' = true) :
    resultsMatch results results' = true := by
  refine (resultsMatch_iff_of_perm h).mpr fun document => ?_
  refine forall₂_of_forall_mem (h.filter _).length_eq fun r hr r' hr' => ?_
  rw [onDocument, List.mem_filter, beq_iff_eq] at hr hr'
  exact hagree r hr.1 r' (h.mem_iff.mpr hr'.1) (hr.2.trans hr'.2.symm)

end Perm

/-! ## Both ways -/

theorem pairwiseAgree_comm {α : Type} {r : α → α → Bool} (h : ∀ a b, r a b = r b a) :
    ∀ as bs : List α, pairwiseAgree r as bs = pairwiseAgree r bs as
  | [], [] => rfl
  | [], _ :: _ => rfl
  | _ :: _, [] => rfl
  | a :: as, b :: bs => by
    rw [pairwiseAgree, pairwiseAgree, h a b, pairwiseAgree_comm h as bs]

theorem optionsAgree_comm {α : Type} {r : α → α → Bool} (h : ∀ a b, r a b = r b a) :
    ∀ a b : Option α, optionsAgree r a b = optionsAgree r b a
  | none, none => rfl
  | none, some _ => rfl
  | some _, none => rfl
  | some a, some b => h a b

theorem Result.agrees_comm (r r' : Result) : r.agrees r' = r'.agrees r := by
  unfold agrees
  rw [BEq.comm (a := r.itemNumber), BEq.comm (a := r.isLinked),
    BEq.comm (a := r.documentReference), BEq.comm (a := r.checkCode),
    BEq.comm (a := r.decisionCode), BEq.comm (a := r.reason), BEq.comm (a := r.detailCode)]

theorem resultsMatch_comm (results results' : List Result) :
    resultsMatch results results' = resultsMatch results' results :=
  pairwiseAgree_comm Result.agrees_comm _ _

namespace Decision

theorem sameMarker_comm (a b : Decision) : a.sameMarker b = b.sameMarker a := by
  rw [Bool.eq_iff_iff, sameMarker, sameMarker]
  simp only [Bool.and_eq_true, beq_iff_eq]
  exact ⟨fun ⟨h, heq⟩ => ⟨heq ▸ h, heq.symm⟩, fun ⟨h, heq⟩ => ⟨heq ▸ h, heq.symm⟩⟩

theorem sameAs_comm (a b : Decision) : a.sameAs b = b.sameAs a := by
  rw [sameAs, sameAs, sameMarker_comm, optionsAgree_comm resultsMatch_comm]

/-- The results of the decision on a document. -/
def resultsOn (d : Decision) (document : Option String × Option String) : List Result :=
  onDocument document (d.results.getD [])

/-- Decisions whose results are the same up to their order are the same, either way round,
exactly if they have one marker or if on every document their results agree one after the
other. Results on one document that all agree may stand in any order. -/
theorem sameAs_iff_of_perm {a b : Decision} (h : Option.Rel List.Perm a.results b.results) :
    (a.sameAs b = true ↔ a.sameMarker b = true ∨ ∀ document,
      List.Forall₂ (fun r r' => Result.agrees r r' = true) (a.resultsOn document)
        (b.resultsOn document)) ∧
    b.sameAs a = a.sameAs b ∧
    ((∀ r ∈ a.results.getD [], ∀ r' ∈ a.results.getD [], r.document = r'.document →
      r.agrees r' = true) → a.sameAs b = true) := by
  have hsame : a.sameAs b = true ↔ a.sameMarker b = true ∨
      resultsMatch (a.results.getD []) (b.results.getD []) = true := by
    rw [sameAs, Bool.or_eq_true]
    refine or_congr_right ?_
    generalize a.results = rs, b.results = rs' at h
    cases h with
    | some _ => exact Iff.rfl
    | none => exact iff_of_true rfl rfl
  have hperm : (a.results.getD []).Perm (b.results.getD []) := by
    generalize a.results = rs, b.results = rs' at h
    cases h with
    | some hperm => exact hperm
    | none => exact .refl _
  refine ⟨?_, sameAs_comm b a, fun hagree => ?_⟩
  · rw [hsame, resultsMatch_iff_of_perm hperm]
    exact Iff.rfl
  · exact hsame.mpr (Or.inr (resultsMatch_of_perm hperm hagree))

end Decision

/-! ## One catch, two checks -/

/-- The answer to a check of a catch on its one certificate. -/
def catchResult (checkCode : String) (code : DecisionCode) : Result where
  itemNumber := 1
  notificationReference := some "CHEDP.GB.2025.0000001"
  documentReference := some "GBCHD2025.0000001"
  documentCode := some "N853"
  checkCode := checkCode
  decisionCode := code
  reason := none
  detailCode := none

/-- A decision with these results and no marker. -/
def unmarked (results : List Result) : Decision := ⟨none, none, [], some results⟩

/-- Two checks on one document, in either order, make two decisions. -/
theorem reordered_checks_differ :
    ∃ a b : Decision, Option.Rel List.Perm a.results b.results ∧
      a.sameAs b = false ∧ b.sameAs a = false :=
  ⟨unmarked [catchResult "H222" .c03, catchResult "H224" .c07],
    unmarked [catchResult "H224" .c07, catchResult "H222" .c03],
    .some (List.Perm.swap _ _ _), by decide, by decide⟩

/-- The answer to a check on a certificate of its own. -/
def licenceResult (reference : String) (code : DecisionCode) : Result :=
  { catchResult "H222" code with documentReference := some reference }

/-- Two documents with one result each may change places. -/
theorem reordered_documents_same :
    (unmarked [licenceResult "GBCHD2025.0000002" .n04,
      licenceResult "GBCHD2025.0000001" .c03]).sameAs
      (unmarked [licenceResult "GBCHD2025.0000001" .c03,
        licenceResult "GBCHD2025.0000002" .n04]) = true :=
  (Decision.sameAs_iff_of_perm (.some (List.Perm.swap _ _ _))).2.2 (by decide)

end BorderControl
