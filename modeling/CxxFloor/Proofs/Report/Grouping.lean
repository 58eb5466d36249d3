/-
# Findings by feature are all findings

A report takes the findings of a file apart by feature and sorts each group by
place.  Nothing is lost on the way if every feature that was found is in the
catalog (`listedByFeature`): the groups put together are the findings in
another order, those of one feature are next to each other, and features
follow the catalog.  The second sort leaves each group as it is, since what is
found in a text is sorted by offset already and a later offset has a later
line, or a later column of its line (`listedBefore_findings`).
-/
import CxxFloor.Proofs.Order
import CxxFloor.Proofs.Quotation
import CxxFloor.Report.Document

namespace CxxFloor

def FileReport.listed (r : FileReport) (catalog : Catalog) : List Match :=
  (r.groups catalog).flatMap (·.findings)

/-- The second list has the findings of the first by feature: the features in the order of the
catalog, and for each its findings by line, column and offset, in the order that they had. -/
structure ListedByFeature (catalog : Catalog) (findings listed : List Match) : Prop where
  perm : listed.Perm findings
  ordered : listed.Pairwise fun a b => catalog.rank a.feature < catalog.rank b.feature ∨
    a.feature = b.feature ∧ a.listedBefore b = true
  kept : ∀ id, listed.filter (·.feature = id) = findings.filter (·.feature = id)

/-! ## Lists by key -/

section Keys

variable {α κ : Type} [DecidableEq κ] {key : α → κ} {keys : List κ}

theorem perm_flatMap_filter (hnodup : keys.Nodup) {l : List α} (h : ∀ a ∈ l, key a ∈ keys) :
    (keys.flatMap fun k => l.filter (key · = k)).Perm l := by
  induction keys generalizing l with
  | nil =>
      obtain rfl := List.eq_nil_iff_forall_not_mem.2 fun a ha => List.not_mem_nil (h a ha)
      exact .refl _
  | cons k keys ih =>
      obtain ⟨hk, hnodup⟩ := List.nodup_cons.1 hnodup
      -- what is left behind the first key has the other keys
      have hrest : ∀ a ∈ l.filter (!key · = k), key a ∈ keys := by
        intro a ha
        obtain ⟨ha, hne⟩ := List.mem_filter.1 ha
        exact (List.mem_cons.1 (h a ha)).resolve_left (by simpa using hne)
      have hsame : (keys.flatMap fun k' => l.filter (key · = k')) =
          keys.flatMap fun k' => (l.filter (!key · = k)).filter (key · = k') := by
        refine List.flatMap_congr fun k' hk' => ?_
        rw [List.filter_filter]
        refine List.filter_congr fun a _ => ?_
        have hne : k' ≠ k := fun heq => hk (heq ▸ hk')
        by_cases heq : key a = k' <;> simp [heq, hne]
      rw [List.flatMap_cons, hsame]
      exact ((ih hnodup hrest).append_left _).trans (List.filter_append_perm _ l)

theorem filter_flatMap_filter (hnodup : keys.Nodup) {k : κ} (hk : k ∈ keys) (l : List α) :
    (keys.flatMap fun k' => l.filter (key · = k')).filter (key · = k) = l.filter (key · = k) := by
  have hone : ∀ k', (l.filter (key · = k')).filter (key · = k)
      = if k' = k then l.filter (key · = k) else [] := by
    intro k'
    rw [List.filter_filter]
    split
    next heq => simp [heq]
    next hne =>
      refine List.filter_eq_nil_iff.2 fun a _ => ?_
      by_cases heq : key a = k' <;> simp [heq, hne]
  have hnone : ∀ {ks : List κ}, k ∉ ks →
      (ks.flatMap fun k' => l.filter (key · = k')).filter (key · = k) = [] := by
    intro ks hks
    rw [List.filter_flatMap, List.flatMap_eq_nil_iff]
    intro k' hk'
    rw [hone, if_neg fun heq : k' = k => hks (heq ▸ hk')]
  obtain ⟨before, behind, rfl⟩ := List.append_of_mem hk
  obtain ⟨hbefore, hbehind⟩ : k ∉ before ∧ k ∉ behind := by
    have := List.nodup_append.1 hnodup
    refine ⟨fun hmem => this.2.2 k hmem k List.mem_cons_self rfl, ?_⟩
    exact (List.nodup_cons.1 this.2.1).1
  rw [List.flatMap_append, List.flatMap_cons, List.filter_append, List.filter_append, hnone hbefore,
    hnone hbehind, hone, if_pos rfl, List.nil_append, List.append_nil]

end Keys

/-! ## Groups -/

theorem Match.listedBefore_of_standsIn {cs : List Char} {a b : Match}
    (ha : a.toSpot.StandsIn cs) (hb : b.toSpot.StandsIn cs) (hle : a.offset ≤ b.offset) :
    a.listedBefore b = true := by
  obtain ⟨m, -, hoffset, hline, hcolumn⟩ := ha
  obtain ⟨n, hn, hoffset', hline', hcolumn'⟩ := hb
  rw [listedBefore]
  rcases Nat.lt_or_eq_of_le (show m ≤ n by omega) with hlt | rfl
  · rcases Text.placeAt_lt hlt hn with hlines | ⟨hlines, hcolumns⟩
    · rw [if_pos (by omega), decide_eq_true_eq]
      omega
    · rw [if_neg (by omega), if_pos (by omega), decide_eq_true_eq]
      omega
  · rw [if_neg (by omega), if_neg (by omega), decide_eq_true_eq]
    exact hle

section Report

variable {catalog : Catalog} {disabled : List String} {d : Dispatcher}
  (hmake : Dispatcher.make catalog standardMatchers disabled = .ok d) (name text : String)
  (floor : Int)

include hmake

theorem pairwise_listedBefore_findings :
    (d.reportOn name text floor).classification.findings.Pairwise fun a b =>
      a.listedBefore b = true := by
  have hd := Dispatcher.of_make hmake
  have hstands : ∀ m ∈ (d.reportOn name text floor).classification.findings,
      m.toSpot.StandsIn text.toList := by
    intro m hm
    obtain ⟨f, hf, hm⟩ := Dispatcher.mem_found_run.1 (List.mem_mergeSort.1 hm)
    exact ((Dispatcher.shownAt_of_mem_found hd hm).quotes hf).1
  have hsorted : (d.reportOn name text floor).classification.findings.Pairwise fun a b =>
      d.catalog.findingLe a b = true :=
    List.pairwise_mergeSort Catalog.findingLe_trans Catalog.findingLe_total _
  refine hsorted.imp_of_mem fun {a b} ha hb hle => ?_
  refine Match.listedBefore_of_standsIn (hstands a ha) (hstands b hb) ?_
  rw [Catalog.findingLe_iff] at hle
  omega

/-- The groups of a report are its findings taken apart by feature. -/
theorem listed_eq :
    (d.reportOn name text floor).listed catalog =
      (catalog.entries.map (·.id)).flatMap fun id =>
        (d.reportOn name text floor).classification.findings.filter (·.feature = id) := by
  generalize hr : d.reportOn name text floor = r
  have hsorted : r.classification.findings.Pairwise fun a b => a.listedBefore b = true :=
    hr ▸ pairwise_listedBefore_findings hmake name text floor
  unfold FileReport.listed FileReport.groups
  induction catalog.entries with
  | nil => rfl
  | cons e es ih =>
      have hgroup : (FeatureGroup.of r.classification.findings e).findings =
          r.classification.findings.filter (·.feature = e.id) := by
        show (r.classification.findings.filter (·.feature == e.id)).mergeSort _ = _
        rw [List.mergeSort_of_pairwise (hsorted.sublist List.filter_sublist)]
        rfl
      rw [List.map_cons, List.map_cons, List.flatMap_cons, ← hgroup, ← ih, List.filter_cons]
      cases hempty : (FeatureGroup.of r.classification.findings e).findings with
      | nil => rfl
      | cons m ms => simp [hempty]

theorem listedByFeature :
    ListedByFeature catalog (d.reportOn name text floor).classification.findings
      ((d.reportOn name text floor).listed catalog) := by
  have hlisted := listed_eq hmake name text floor
  have hsorted := pairwise_listedBefore_findings hmake name text floor
  have hknown : ∀ m ∈ (d.reportOn name text floor).classification.findings,
      m.feature ∈ catalog.entries.map (·.id) := by
    intro m hm
    have hcontains := Dispatcher.contains_of_mem_found hmake (List.mem_mergeSort.1 hm)
    obtain ⟨e, he⟩ := Option.isSome_iff_exists.1 hcontains
    have hid := List.find?_some he
    exact List.mem_map.2 ⟨e, List.mem_of_find?_eq_some he, by simpa using hid⟩
  rw [hlisted]
  generalize (d.reportOn name text floor).classification.findings = findings at hsorted hknown
  refine ⟨perm_flatMap_filter catalog.nodup hknown, ?_, fun id => ?_⟩
  · rw [List.pairwise_flatMap]
    refine ⟨fun id _ => ?_, ?_⟩
    · refine (hsorted.sublist List.filter_sublist).imp_of_mem fun {a b} ha hb hle => .inr ⟨?_, hle⟩
      rw [of_decide_eq_true (List.mem_filter.1 ha).2, of_decide_eq_true (List.mem_filter.1 hb).2]
    · refine catalog.pairwise_rank.imp fun {id id'} hlt a ha b hb => .inl ?_
      rwa [of_decide_eq_true (List.mem_filter.1 ha).2, of_decide_eq_true (List.mem_filter.1 hb).2]
  · by_cases hid : id ∈ catalog.entries.map (·.id)
    · exact filter_flatMap_filter catalog.nodup hid findings
    · have hnone : findings.filter (·.feature = id) = [] := by
        refine List.filter_eq_nil_iff.2 fun m hm heq => hid ?_
        exact of_decide_eq_true heq ▸ hknown m hm
      rw [hnone, List.filter_eq_nil_iff]
      intro m hm heq
      obtain ⟨id', hid', hm⟩ := List.mem_flatMap.1 hm
      have hfeature := of_decide_eq_true (List.mem_filter.1 hm).2
      exact hid ((of_decide_eq_true heq).symm.trans hfeature ▸ hid')

end Report

end CxxFloor
