/-
# What a classification amounts to

A classification sorts matches, takes the newest standard that one of them
needs, and counts them by feature.  What comes of it is said here without the
way it is made (`Classification.Summarises`): the findings are the matches,
ordered by offset and then as the catalog lists features; the standard is the
greatest of theirs; and the tally has one entry for each feature that occurs,
in catalog order.  It holds of every catalog, in any order and with any
standards, and of all matches whose features it lists.  Other matches are
refused, and the refusal names the first of them (`classification_summarises`).

The sort key is a position in the catalog, the greatest standard is taken over
features, and the tally runs over the catalog.  The three agree because an id
has one position and one entry (`Catalog.rank_eq_idxOf`,
`Catalog.find?_eq_some_iff`).
-/
import CxxFloor.Proofs.Feature.Standard
import CxxFloor.Proofs.Order
import Mathlib.Algebra.BigOperators.Group.List.Lemmas
import Mathlib.Algebra.GroupWithZero.Nat

namespace CxxFloor

/-- The classification says of the matches all that there is to say. -/
structure Classification.Summarises (c : Catalog) (floor : Int) (matched : List Match)
    (r : Classification) : Prop where
  findings_perm : r.findings.Perm matched
  /-- Findings at one offset stand as the catalog lists their features. -/
  findings_ordered : r.findings.Pairwise fun a b => a.offset < b.offset ∨
    a.offset = b.offset ∧ c.ids.idxOf a.feature ≤ c.ids.idxOf b.feature
  required_of_nil : r.findings = [] → r.required = floor
  /-- The required standard is that of a finding, even where the floor is newer. -/
  required_mem : r.findings ≠ [] →
    ∃ m ∈ r.findings, ∃ d ∈ c.entries, d.id = m.feature ∧ d.minStandard = r.required
  le_required : ∀ m ∈ r.findings, ∀ d ∈ c.entries, d.id = m.feature → d.minStandard ≤ r.required
  /-- The features that occur are counted, in catalog order. -/
  byFeature_eq : r.byFeature = (c.ids.filter (· ∈ r.findings.map (·.feature))).map fun id =>
    (id, (r.findings.map (·.feature)).count id)
  byFeature_sum : (r.byFeature.map (·.2)).sum = r.findings.length

namespace Catalog

variable {c : Catalog} {ids : List String}

/-! ## The tally -/

theorem tally_eq (c : Catalog) (ids : List String) :
    c.tally ids = (c.ids.filter (· ∈ ids)).map fun id => (id, ids.count id) := by
  unfold tally
  rw [List.filter_map]
  congr 1
  refine List.filter_congr fun id _ => ?_
  exact decide_eq_decide.2 List.count_pos_iff

theorem sum_tally (h : ∀ id ∈ ids, id ∈ c.ids) : ((c.tally ids).map (·.2)).sum = ids.length := by
  have hnodup : c.ids.Nodup := c.nodup
  have hperm : (c.ids.filter (· ∈ ids)).Perm ids.dedup := by
    rw [List.perm_ext_iff_of_nodup (hnodup.filter _) ids.nodup_dedup]
    intro id
    rw [List.mem_filter, decide_eq_true_eq, List.mem_dedup]
    exact ⟨And.right, fun hid => ⟨h id hid, hid⟩⟩
  calc ((c.tally ids).map (·.2)).sum
      = ((c.ids.filter (· ∈ ids)).map fun id => ids.count id).sum := by
        rw [tally_eq, List.map_map]
        rfl
    _ = (ids.dedup.map fun id => ids.count id).sum := (hperm.map _).sum_eq
    _ = ids.length := List.sum_map_count_dedup_eq_length ids

/-! ## The standard -/

theorem mem_standards_iff {n : Int} : n ∈ (ids.filterMap c.find?).map (·.minStandard) ↔
    ∃ id ∈ ids, ∃ d ∈ c.entries, d.id = id ∧ d.minStandard = n := by
  simp only [List.mem_map, List.mem_filterMap, find?_eq_some_iff]
  constructor
  · rintro ⟨d, ⟨id, hid, hd, heq⟩, hn⟩
    exact ⟨id, hid, d, hd, heq, hn⟩
  · rintro ⟨id, hid, d, hd, heq, hn⟩
    exact ⟨d, ⟨id, hid, hd, heq⟩, hn⟩

/-- Known features need a standard, the newest of theirs. -/
theorem exists_newest? (hne : ids ≠ []) (h : ∀ id ∈ ids, id ∈ c.ids) :
    ∃ n, c.newest? ids = some n ∧
      (∃ id ∈ ids, ∃ d ∈ c.entries, d.id = id ∧ d.minStandard = n) ∧
      ∀ id ∈ ids, ∀ d ∈ c.entries, d.id = id → d.minStandard ≤ n := by
  obtain ⟨id, hid⟩ := List.exists_mem_of_ne_nil ids hne
  obtain ⟨d, hd, heq⟩ := List.mem_map.1 (h id hid)
  have hmem : d.minStandard ∈ (ids.filterMap c.find?).map (·.minStandard) :=
    mem_standards_iff.2 ⟨id, hid, d, hd, heq, rfl⟩
  cases hmax : ((ids.filterMap c.find?).map (·.minStandard)).max? with
  | none =>
      rw [List.max?_eq_none_iff.1 hmax] at hmem
      exact absurd hmem List.not_mem_nil
  | some n =>
      obtain ⟨hn, hle⟩ := List.max?_eq_some_iff.1 hmax
      refine ⟨n, hmax, mem_standards_iff.1 hn, ?_⟩
      intro id' hid' d' hd' heq'
      exact hle _ (mem_standards_iff.2 ⟨id', hid', d', hd', heq', rfl⟩)

end Catalog

/-! ## Classifications -/

/-- Matches are refused at the first of them whose feature the catalog does not list. -/
theorem classify_eq (matched : List Match) (c : Catalog) (floor : Int) :
    classify matched c floor = match matched.find? fun m => m.feature ∉ c.ids with
      | none => .ok (.of matched c floor)
      | some m => .error (.unknownFeature m.feature) := by
  have hunknown : (fun m : Match => !c.contains m.feature) =
      fun m => decide (m.feature ∉ c.ids) := by
    funext m
    rw [Bool.eq_iff_iff, Bool.not_eq_true', decide_eq_true_eq, ← Catalog.contains_iff_mem_ids,
      Bool.not_eq_true]
  have hlookup := Catalog.forM_lookup_eq (c := c) (fun m : Match => m.feature) matched
  rw [hunknown] at hlookup
  unfold classify
  rw [hlookup]
  cases matched.find? fun m => m.feature ∉ c.ids with
  | none => rfl
  | some m => rfl

theorem classify_eq_error_iff {matched : List Match} {c : Catalog} {floor : Int} {e : Refusal} :
    classify matched c floor = .error e ↔ ∃ before m behind, matched = before ++ m :: behind ∧
      (∀ a ∈ before, a.feature ∈ c.ids) ∧ m.feature ∉ c.ids ∧ e = .unknownFeature m.feature := by
  have hfirst : ∀ m, (matched.find? fun m => m.feature ∉ c.ids) = some m ↔
      m.feature ∉ c.ids ∧ ∃ before behind, matched = before ++ m :: behind ∧
        ∀ a ∈ before, a.feature ∈ c.ids := by
    intro m
    simp [List.find?_eq_some_iff_append]
  rw [classify_eq]
  constructor
  · intro h
    cases hfind : matched.find? fun m => m.feature ∉ c.ids with
    | none =>
        rw [hfind] at h
        cases h
    | some m =>
        rw [hfind] at h
        cases h
        obtain ⟨hunlisted, before, behind, heq, hlisted⟩ := (hfirst m).1 hfind
        exact ⟨before, m, behind, heq, hlisted, hunlisted, rfl⟩
  · rintro ⟨before, m, behind, heq, hlisted, hunlisted, rfl⟩
    rw [(hfirst m).2 ⟨hunlisted, before, behind, heq, hlisted⟩]

theorem Classification.summarises_of {matched : List Match} {c : Catalog}
    (h : ∀ m ∈ matched, m.feature ∈ c.ids) (floor : Int) :
    (of matched c floor).Summarises c floor matched := by
  have hperm : (of matched c floor).findings.Perm matched := List.mergeSort_perm matched _
  have hknown : ∀ id ∈ (of matched c floor).findings.map (·.feature), id ∈ c.ids := by
    intro id hid
    obtain ⟨m, hm, rfl⟩ := List.mem_map.1 hid
    exact h m (hperm.mem_iff.1 hm)
  have hsorted : (of matched c floor).findings.Pairwise fun a b => c.findingLe a b = true :=
    List.pairwise_mergeSort Catalog.findingLe_trans Catalog.findingLe_total matched
  have hrequired : (of matched c floor).required =
      (c.newest? ((of matched c floor).findings.map (·.feature))).getD floor := rfl
  have hfeatures : (of matched c floor).findings ≠ [] →
      (of matched c floor).findings.map (·.feature) ≠ [] := by
    intro hne hnil
    exact hne (List.map_eq_nil_iff.1 hnil)
  constructor
  case findings_perm => exact hperm
  case findings_ordered =>
    refine hsorted.imp ?_
    intro a b hle
    rw [Catalog.findingLe_iff, Catalog.rank_eq_idxOf, Catalog.rank_eq_idxOf] at hle
    omega
  case required_of_nil =>
    intro hnil
    rw [hrequired, hnil]
    rfl
  case required_mem =>
    intro hne
    obtain ⟨n, hn, ⟨id, hid, d, hd, heq, hstandard⟩, -⟩ :=
      Catalog.exists_newest? (hfeatures hne) hknown
    obtain ⟨m, hm, rfl⟩ := List.mem_map.1 hid
    refine ⟨m, hm, d, hd, heq, ?_⟩
    rw [hrequired, hn, Option.getD_some, hstandard]
  case le_required =>
    intro m hm d hd heq
    obtain ⟨n, hn, -, hle⟩ :=
      Catalog.exists_newest? (hfeatures (List.ne_nil_of_mem hm)) hknown
    rw [hrequired, hn, Option.getD_some]
    exact hle m.feature (List.mem_map_of_mem hm) d hd heq
  case byFeature_eq => exact Catalog.tally_eq c _
  case byFeature_sum =>
    rw [← List.length_map (·.feature)]
    exact Catalog.sum_tally hknown

/-- Whatever the catalog, the floor and the matches, a classification is refused exactly if the
catalog does not list the feature of one of them, and then for the first such match; otherwise it
summarises the matches. -/
theorem classification_summarises (c : Catalog) (floor : Int) (matched : List Match) :
    ((∃ e, classify matched c floor = .error e) ↔ ∃ m ∈ matched, m.feature ∉ c.ids) ∧
    (∀ e, classify matched c floor = .error e ↔ ∃ before m behind,
      matched = before ++ m :: behind ∧ (∀ a ∈ before, a.feature ∈ c.ids) ∧ m.feature ∉ c.ids ∧
        e = .unknownFeature m.feature) ∧
    ((∀ m ∈ matched, m.feature ∈ c.ids) →
      ∃ r, classify matched c floor = .ok r ∧ r.Summarises c floor matched) := by
  have hsummarised : (∀ m ∈ matched, m.feature ∈ c.ids) →
      ∃ r, classify matched c floor = .ok r ∧ r.Summarises c floor matched := by
    intro hlisted
    refine ⟨_, classify_of_contains ?_, Classification.summarises_of hlisted floor⟩
    intro m hm
    exact Catalog.contains_iff_mem_ids.2 (hlisted m hm)
  refine ⟨⟨?_, ?_⟩, fun e => classify_eq_error_iff, hsummarised⟩
  · rintro ⟨e, he⟩
    obtain ⟨before, m, behind, rfl, -, hunlisted, -⟩ := classify_eq_error_iff.1 he
    exact ⟨m, by simp, hunlisted⟩
  · rintro ⟨m, hm, hunlisted⟩
    cases h : classify matched c floor with
    | error e => exact ⟨e, rfl⟩
    | ok r =>
        rw [classify_eq] at h
        split at h
        next hnone => exact absurd (List.find?_eq_none.1 hnone m hm) (by simpa using hunlisted)
        next => cases h

end CxxFloor
