import BorderControl.Proofs.Linking
import BorderControl.Proofs.Utf8

/-!
# What a report holds

A report is made commodity by commodity. On one commodity it tells every document that names a
certificate, once, as linked or as unlinked, and no other document (`LinkReport.Covers`). A
document is linked if its certificate has a notification, and then to the first one. Both lists
follow the order of declarations and commodities, and within a commodity the order of references
and codes, byte by byte (`LinkReport.Reports`).

There is one such report (`LinkReport.Reports.unique`), and `linkDocuments` makes it
(`linkDocuments_reports`). It shows neither how often and in which order a commodity declares its
documents, nor the notifications that stand for no certificate.
-/

namespace BorderControl

/-! ## Reports on a commodity -/

/-- The document comes before the other one by the bytes of its reference, and of its code where
they share the reference. -/
def Document.Precedes (a b : Document) : Prop :=
  a.reference.toUTF8.toList < b.reference.toUTF8.toList ∨
    a.reference = b.reference ∧ a.code.toUTF8.toList < b.code.toUTF8.toList

/-- The notification stands for the certificate, and none before it does. -/
def Notification.IsFirst (n : Notification) (notifications : List Notification)
    (i : Identifier) : Prop :=
  ∃ before after, notifications = before ++ n :: after ∧ n.identifier? = some i ∧
    ∀ m ∈ before, m.identifier? ≠ some i

/-- The commodities of the declarations in order, each with the MRN of its declaration. -/
def declaredItems (declarations : List Declaration) : List (String × Commodity) :=
  declarations.flatMap fun d => d.commodities.map fun c => (d.mrn, c)

namespace LinkReport

/-- The groups that are linked, and those that are not. -/
def groups (r : LinkReport) : List DocumentGroup := r.linked.map Prod.fst ++ r.unlinked

/-- The report tells about one commodity what there is to tell. -/
structure Covers (r : LinkReport) (notifications : List Notification) (mrn : String)
    (c : Commodity) : Prop where
  once : r.groups.Nodup
  mem_groups : ∀ g, g ∈ r.groups ↔
    ∃ d ∈ c.documents, (∃ i, d.identifier? = some i) ∧ g = ⟨mrn, c.itemNumber, d⟩
  isLinked : ∀ g ∈ r.groups, g ∈ r.linked.map Prod.fst ↔
    ∃ n ∈ notifications, n.identifier? = g.document.identifier?
  first : ∀ g reference, (g, reference) ∈ r.linked → ∃ (i : Identifier) (n : Notification),
    g.document.identifier? = some i ∧ n.IsFirst notifications i ∧ n.reference = reference
  linkedAscend : (r.linked.map Prod.fst).Pairwise fun a b => a.document.Precedes b.document
  unlinkedAscend : r.unlinked.Pairwise fun a b => a.document.Precedes b.document

/-- The report is put together, in order, from reports on the commodities. -/
def Reports (r : LinkReport) (notifications : List Notification)
    (declarations : List Declaration) : Prop :=
  ∃ parts : List LinkReport,
    List.Forall₂ (fun (item : String × Commodity) (part : LinkReport) =>
      part.Covers notifications item.1 item.2) (declaredItems declarations) parts ∧
    r.linked = parts.flatMap (·.linked) ∧ r.unlinked = parts.flatMap (·.unlinked)

end LinkReport

/-! ## The order of documents -/

namespace Document

theorem Precedes.asymm {a b : Document} (h : a.Precedes b) : ¬ b.Precedes a := by
  rcases h with hab | ⟨href, hab⟩
  · rintro (hba | ⟨href, -⟩)
    · exact List.lt_asymm hab hba
    · exact List.lt_irrefl _ (href ▸ hab)
  · rintro (hba | ⟨-, hba⟩)
    · exact List.lt_irrefl _ (href ▸ hba)
    · exact List.lt_asymm hab hba

theorem le_iff {a b : Document} :
    a.le b = true ↔ a.reference < b.reference ∨ a.reference = b.reference ∧ a.code ≤ b.code := by
  simp [le]

theorem le_antisymm {a b : Document} (hab : a.le b = true) (hba : b.le a = true) : a = b := by
  rw [le_iff] at hab hba
  rcases hab with hlt | ⟨href, hab⟩
  · rcases hba with hgt | ⟨href, -⟩
    · exact absurd hgt (String.lt_asymm hlt)
    · exact absurd hlt (href ▸ String.lt_irrefl _)
  · rcases hba with hgt | ⟨-, hba⟩
    · exact absurd hgt (href ▸ String.lt_irrefl _)
    · rw [Document.mk.injEq]
      exact ⟨String.le_antisymm hab hba, href⟩

theorem isRanking_le : IsRanking le where
  total a b := by
    rw [le_iff, le_iff]
    rcases Std.lt_trichotomy a.reference b.reference with h | h | h
    · exact Or.inl (Or.inl h)
    · exact (String.le_total a.code b.code).imp (Or.inr ⟨h, ·⟩) (Or.inr ⟨h.symm, ·⟩)
    · exact Or.inr (Or.inl h)
  trans hab hbc := by
    rw [le_iff] at hab hbc ⊢
    rcases hab with hab | ⟨hab, hcode⟩
    · rcases hbc with hbc | ⟨hbc, -⟩
      · exact Or.inl (String.lt_trans hab hbc)
      · exact Or.inl (hbc ▸ hab)
    · rcases hbc with hbc | ⟨hbc, hcode'⟩
      · exact Or.inl (hab ▸ hbc)
      · exact Or.inr ⟨hab.trans hbc, String.le_trans hcode hcode'⟩

theorem precedes_of_le {a b : Document} (hle : a.le b = true) (hne : a ≠ b) : a.Precedes b := by
  rcases le_iff.mp hle with hlt | ⟨href, hcode⟩
  · exact Or.inl (Text.toUTF8_lt_of_lt hlt)
  · refine Or.inr ⟨href, Text.toUTF8_lt_of_lt (Std.lt_of_le_of_ne hcode fun heq => hne ?_)⟩
    rw [Document.mk.injEq]
    exact ⟨heq, href⟩

end Document

/-! ## The report on a commodity -/

/-- The report on one commodity. -/
def Commodity.report (notifications : List Notification) (mrn : String) (c : Commodity) :
    LinkReport where
  linked := (c.groups mrn).filterMap fun (g, i) =>
    (firstNotification? notifications i).map fun n => (g, n.reference)
  unlinked := (c.groups mrn).filterMap fun (g, i) =>
    if (firstNotification? notifications i).isNone then some g else none

section Commodity

variable {notifications : List Notification} {mrn : String} {c : Commodity}

theorem isSome_firstNotification? {i : Identifier} :
    (firstNotification? notifications i).isSome = true ↔
      ∃ n ∈ notifications, n.identifier? = some i := by
  rw [firstNotification?, List.find?_isSome]
  simp only [beq_iff_eq]

theorem isFirst_of_firstNotification? {n : Notification} {i : Identifier}
    (h : firstNotification? notifications i = some n) : n.IsFirst notifications i := by
  obtain ⟨hn, before, after, rfl, hbefore⟩ := List.find?_eq_some_iff_append.mp h
  exact ⟨before, after, rfl, beq_iff_eq.mp hn, fun m hm => by simpa using hbefore m hm⟩

theorem Notification.IsFirst.unique {n m : Notification} {i : Identifier}
    (hn : n.IsFirst notifications i) (hm : m.IsFirst notifications i) : n = m := by
  have hfind : ∀ {n : Notification}, n.IsFirst notifications i →
      firstNotification? notifications i = some n := by
    rintro n ⟨before, after, rfl, hn, hbefore⟩
    refine List.find?_eq_some_iff_append.mpr
      ⟨beq_iff_eq.mpr hn, before, after, rfl, fun m hm => ?_⟩
    simpa using hbefore m hm
  exact Option.some.inj ((hfind hn).symm.trans (hfind hm))

/-- The groups of a commodity ascend by their documents. -/
theorem Commodity.groups_ascend (mrn : String) (c : Commodity) :
    ((c.groups mrn).map Prod.fst).Pairwise fun a b => a.document.Precedes b.document := by
  rw [Commodity.groups, List.map_filterMap, List.pairwise_filterMap]
  refine (pairwise_distinct Document.isRanking_le c.documents).imp ?_
  rintro a b ⟨hle, hne⟩ g hg g' hg'
  simp only [Option.map_map, Option.map_eq_some_iff, Function.comp_apply] at hg hg'
  obtain ⟨-, -, rfl⟩ := hg
  obtain ⟨-, -, rfl⟩ := hg'
  exact Document.precedes_of_le hle hne

theorem Commodity.map_fst_linked : (c.report notifications mrn).linked.map Prod.fst =
    ((c.groups mrn).filter fun p => (firstNotification? notifications p.2).isSome).map
      Prod.fst := by
  rw [Commodity.report, List.map_filterMap, ← List.filterMap_eq_map, List.filterMap_filter]
  refine List.filterMap_congr fun (g, i) _ => ?_
  cases h : firstNotification? notifications i <;> simp [h]

theorem Commodity.unlinked_report : (c.report notifications mrn).unlinked =
    ((c.groups mrn).filter fun p => !(firstNotification? notifications p.2).isSome).map
      Prod.fst := by
  rw [Commodity.report, ← List.filterMap_eq_map, List.filterMap_filter]
  refine List.filterMap_congr fun (g, i) _ => ?_
  cases h : firstNotification? notifications i <;> simp [h]

theorem Commodity.perm_groups_report :
    (c.report notifications mrn).groups.Perm ((c.groups mrn).map Prod.fst) := by
  rw [LinkReport.groups, Commodity.map_fst_linked, Commodity.unlinked_report, ← List.map_append]
  exact (List.filter_append_perm _ _).map _

theorem Commodity.identifier?_of_mem_groups {g : DocumentGroup} {i : Identifier}
    (h : (g, i) ∈ c.groups mrn) : g.document.identifier? = some i := by
  obtain ⟨d, -, hi, rfl⟩ := Commodity.mem_groups.mp h
  exact hi

theorem Commodity.covers_report (notifications : List Notification) (mrn : String)
    (c : Commodity) : (c.report notifications mrn).Covers notifications mrn c := by
  have hascend := Commodity.groups_ascend mrn c
  constructor
  case once =>
    refine perm_groups_report.nodup_iff.mpr (hascend.imp ?_)
    rintro a b hab rfl
    exact hab.asymm hab
  case mem_groups =>
    intro g
    rw [perm_groups_report.mem_iff, List.mem_map]
    simp only [Prod.exists, exists_and_right, exists_eq_right, Commodity.mem_groups]
    constructor
    · rintro ⟨i, d, hd, hi, rfl⟩
      exact ⟨d, hd, ⟨i, hi⟩, rfl⟩
    · rintro ⟨d, hd, ⟨i, hi⟩, rfl⟩
      exact ⟨i, d, hd, hi, rfl⟩
  case isLinked =>
    intro g hg
    obtain ⟨⟨g, i⟩, hgroup, rfl⟩ := List.mem_map.mp (perm_groups_report.mem_iff.mp hg)
    have hi := Commodity.identifier?_of_mem_groups hgroup
    rw [Commodity.map_fst_linked, List.mem_map, hi, ← isSome_firstNotification?]
    constructor
    · rintro ⟨⟨g, j⟩, hj, rfl⟩
      obtain ⟨hgroup', hsome⟩ := List.mem_filter.mp hj
      rwa [Option.some.inj (hi.symm.trans (Commodity.identifier?_of_mem_groups hgroup'))]
    · exact fun hsome => ⟨(g, i), List.mem_filter.mpr ⟨hgroup, hsome⟩, rfl⟩
  case first =>
    intro g reference h
    obtain ⟨⟨g, i⟩, hg, hlink⟩ := List.mem_filterMap.mp h
    obtain ⟨n, hn, heq⟩ := Option.map_eq_some_iff.mp hlink
    obtain ⟨rfl, rfl⟩ := Prod.mk.inj heq
    exact ⟨i, n, Commodity.identifier?_of_mem_groups hg, isFirst_of_firstNotification? hn, rfl⟩
  case linkedAscend =>
    rw [Commodity.map_fst_linked]
    exact hascend.sublist ((List.filter_sublist).map _)
  case unlinkedAscend =>
    rw [Commodity.unlinked_report]
    exact hascend.sublist ((List.filter_sublist).map _)

end Commodity

/-! ## One report -/

namespace LinkReport

variable {r r' : LinkReport} {notifications : List Notification} {mrn : String} {c : Commodity}

theorem Covers.mem_unlinked_iff (h : r.Covers notifications mrn c) {g : DocumentGroup} :
    g ∈ r.unlinked ↔ g ∈ r.groups ∧ g ∉ r.linked.map Prod.fst := by
  have hdisjoint := (List.nodup_append'.mp h.once).2.2
  constructor
  · exact fun hg => ⟨List.mem_append_right _ hg, fun hlinked => hdisjoint hlinked hg⟩
  · rintro ⟨hg, hnot⟩
    exact (List.mem_append.mp hg).resolve_left hnot

theorem Covers.mem_groups_iff (h : r.Covers notifications mrn c)
    (h' : r'.Covers notifications mrn c) (g : DocumentGroup) : g ∈ r.groups ↔ g ∈ r'.groups :=
  (h.mem_groups g).trans (h'.mem_groups g).symm

theorem Covers.mem_map_linked (h : r.Covers notifications mrn c)
    (h' : r'.Covers notifications mrn c) {g : DocumentGroup} (hg : g ∈ r.linked.map Prod.fst) :
    g ∈ r'.linked.map Prod.fst := by
  have hgroup : g ∈ r.groups := List.mem_append_left _ hg
  exact (h'.isLinked g ((h.mem_groups_iff h' g).mp hgroup)).mpr ((h.isLinked g hgroup).mp hg)

theorem Covers.mem_linked (h : r.Covers notifications mrn c) (h' : r'.Covers notifications mrn c)
    {p : DocumentGroup × String} (hp : p ∈ r.linked) : p ∈ r'.linked := by
  obtain ⟨g, reference⟩ := p
  obtain ⟨⟨g, reference'⟩, hp', rfl⟩ :=
    List.mem_map.mp (h.mem_map_linked h' (List.mem_map_of_mem hp))
  obtain ⟨i, n, hi, hn, rfl⟩ := h.first _ _ hp
  obtain ⟨j, m, hj, hm, rfl⟩ := h'.first _ _ hp'
  obtain rfl := Option.some.inj (hi.symm.trans hj)
  rwa [hn.unique hm]

/-- There is one report on a commodity. -/
theorem Covers.unique (h : r.Covers notifications mrn c) (h' : r'.Covers notifications mrn c) :
    r = r' := by
  have hascend : ∀ {r : LinkReport}, r.Covers notifications mrn c →
      r.linked.Pairwise fun p q => p.1.document.Precedes q.1.document :=
    fun h => (List.pairwise_map (f := Prod.fst)).mp h.linkedAscend
  have hlinked : r.linked = r'.linked :=
    eq_of_ascending (fun _ _ => Document.Precedes.asymm) (hascend h) (hascend h') fun p =>
      ⟨h.mem_linked h', h'.mem_linked h⟩
  have hunlinked : r.unlinked = r'.unlinked :=
    eq_of_ascending (fun _ _ => Document.Precedes.asymm) h.unlinkedAscend h'.unlinkedAscend
      fun g => by rw [h.mem_unlinked_iff, h'.mem_unlinked_iff, h.mem_groups_iff h', hlinked]
  rw [LinkReport.mk.injEq]
  exact ⟨hlinked, hunlinked⟩

/-- There is one report on declarations. -/
theorem Reports.unique {declarations : List Declaration} (h : r.Reports notifications declarations)
    (h' : r'.Reports notifications declarations) : r = r' := by
  obtain ⟨parts, hparts, hlinked, hunlinked⟩ := h
  obtain ⟨parts', hparts', hlinked', hunlinked'⟩ := h'
  obtain rfl : parts = parts' :=
    List.right_unique_forall₂' (fun _ _ _ h h' => h.unique h') hparts hparts'
  rw [LinkReport.mk.injEq]
  exact ⟨hlinked.trans hlinked'.symm, hunlinked.trans hunlinked'.symm⟩

end LinkReport

/-! ## The report that is made -/

/-- Declarations of the same items, with the same documents on each. How often and in which order
the documents are declared does not count, nor does the rest of the declaration. -/
def Declaration.DeclaresAlike (d d' : Declaration) : Prop :=
  d.mrn = d'.mrn ∧ List.Forall₂ (fun c c' : Commodity => c.itemNumber = c'.itemNumber ∧
    ∀ document, document ∈ c.documents ↔ document ∈ c'.documents) d.commodities d'.commodities

section Reports

variable {notifications notifications' : List Notification}
  {declarations declarations' : List Declaration}

/-- The reports on the commodities, in order. -/
def itemReports (notifications : List Notification) (declarations : List Declaration) :
    List LinkReport :=
  (declaredItems declarations).map fun item => item.2.report notifications item.1

theorem linkDocuments_eq (notifications : List Notification) (declarations : List Declaration) :
    linkDocuments notifications declarations =
      ⟨(itemReports notifications declarations).flatMap (·.linked),
        (itemReports notifications declarations).flatMap (·.unlinked)⟩ := by
  simp only [linkDocuments, itemReports, declaredItems, Commodity.report, List.filterMap_map,
    List.filterMap_flatMap, List.flatMap_map, List.flatMap_assoc]
  rfl

theorem firstNotification?_congr
    (h : notifications'.filter (·.identifier?.isSome) =
      notifications.filter (·.identifier?.isSome)) (i : Identifier) :
    firstNotification? notifications' i = firstNotification? notifications i := by
  -- only a notification that stands for a certificate is ever found
  have hfilter : ∀ ns : List Notification, firstNotification? ns i =
      firstNotification? (ns.filter (·.identifier?.isSome)) i := by
    intro ns
    rw [firstNotification?, firstNotification?, List.find?_filter]
    refine congrArg (ns.find? ·) (funext fun n => ?_)
    rw [Bool.eq_iff_iff]
    cases n.identifier? <;> simp
  rw [hfilter, h, ← hfilter]

theorem Commodity.report_congr
    (hn : ∀ i, firstNotification? notifications' i = firstNotification? notifications i)
    {mrn : String} {c c' : Commodity} (hitem : c.itemNumber = c'.itemNumber)
    (hmem : ∀ document, document ∈ c.documents ↔ document ∈ c'.documents) :
    c'.report notifications' mrn = c.report notifications mrn := by
  have hgroups : c'.groups mrn = c.groups mrn := by
    rw [groups, groups, hitem, distinct_eq_of_mem_iff Document.isRanking_le
      (fun _ _ => Document.le_antisymm) hmem]
  simp only [report, hgroups, hn]

theorem itemReports_congr
    (hn : ∀ i, firstNotification? notifications' i = firstNotification? notifications i)
    (hd : List.Forall₂ Declaration.DeclaresAlike declarations declarations') :
    itemReports notifications' declarations' = itemReports notifications declarations := by
  have hitems : List.Forall₂ (fun item item' : String × Commodity =>
      item'.2.report notifications' item'.1 = item.2.report notifications item.1)
      (declaredItems declarations) (declaredItems declarations') := by
    refine List.rel_flatMap hd fun d d' ⟨hmrn, hcommodities⟩ => ?_
    rw [List.forall₂_map_left_iff, List.forall₂_map_right_iff]
    exact hcommodities.imp fun c c' ⟨hitem, hmem⟩ => hmrn ▸ Commodity.report_congr hn hitem hmem
  exact map_eq_map_iff_forall₂.mpr hitems.flip

/-- The report made is the one that reports on the declarations. It is the same for documents in
another order or declared more often, and with notifications added that stand for no certificate. -/
theorem linkDocuments_reports (notifications : List Notification)
    (declarations : List Declaration) :
    (linkDocuments notifications declarations).Reports notifications declarations ∧
      (∀ r : LinkReport, r.Reports notifications declarations →
        r = linkDocuments notifications declarations) ∧
      ∀ notifications' declarations',
        notifications'.filter (·.identifier?.isSome) =
          notifications.filter (·.identifier?.isSome) →
        List.Forall₂ Declaration.DeclaresAlike declarations declarations' →
        linkDocuments notifications' declarations' = linkDocuments notifications declarations := by
  have hreports : (linkDocuments notifications declarations).Reports notifications declarations := by
    rw [linkDocuments_eq]
    refine ⟨itemReports notifications declarations, ?_, rfl, rfl⟩
    rw [itemReports, List.forall₂_map_right_iff]
    exact List.forall₂_same.mpr fun item _ => item.2.covers_report notifications item.1
  refine ⟨hreports, fun r hr => hr.unique hreports, fun notifications' declarations' hn hd => ?_⟩
  rw [linkDocuments_eq, linkDocuments_eq, itemReports_congr (firstNotification?_congr hn) hd]

end Reports

/-- Calves with these documents. -/
def calvesWith (documents : List Document) : Declaration :=
  { calvesDeclaration with commodities := [{ calves with documents := documents }] }

/-- A certificate that nobody has notified, a reference without a number, and the certificate of
the calves twice. -/
def calvesDocuments : List Document :=
  [⟨"C640", "GBCHD2025.7654321"⟩, ⟨"C640", "GBCHD2025"⟩, ⟨"C640", "GBCHD2025.1234567"⟩,
    ⟨"C640", "GBCHD2025.1234567"⟩]

/-- Declared the other way round, and with a draft without a number among the notifications, they
make the same report. -/
theorem calves_reported :
    linkDocuments (⟨"CHEDA.GB.2025", .chedA, none, .draft, none, [], none⟩ :: calvesNotifications)
        [calvesWith calvesDocuments.reverse] =
      linkDocuments calvesNotifications [calvesWith calvesDocuments] ∧
    linkDocuments calvesNotifications [calvesWith calvesDocuments] =
      ⟨[(⟨calvesDeclaration.mrn, 1, ⟨"C640", "GBCHD2025.1234567"⟩⟩, "CHEDP.GB.2025.1234567")],
        [⟨calvesDeclaration.mrn, 1, ⟨"C640", "GBCHD2025.7654321"⟩⟩]⟩ := by
  have halike : (calvesWith calvesDocuments).DeclaresAlike
      (calvesWith calvesDocuments.reverse) :=
    ⟨rfl, .cons ⟨rfl, fun _ => List.mem_reverse.symm⟩ .nil⟩
  refine ⟨(linkDocuments_reports _ _).2.2 _ _ ?_ (.cons halike .nil), by decide +kernel⟩
  decide +kernel

end BorderControl
