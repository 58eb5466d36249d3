/-
# Registering matchers in any order

A dispatcher is made of a list of examiners.  Each of them is looked up in the
catalog, no feature may be registered twice, the disabled ones are left out,
and what remains is sorted.  Main statement: the order of the list leaves no
trace, and neither does the order in which features are disabled
(`dispatch_in_any_order`).

There are two halves to it.  Whether a dispatcher is made at all is said by
three conditions, and none of them mentions an order (`exists_register_iff`).  And
where it is made, its matchers are those that are enabled, in strict catalog
order, which leaves only one way to list them (`Ranked.eq_of_perm`).  The table
that shows a fragment to the matchers of its kind is read off that list.
-/
import CxxFloor.Proofs.Feature.Contest

namespace CxxFloor

namespace Dispatcher

variable {c : Catalog} {disabled disabled' : List String} {ms ms' : List Examiner} {d : Dispatcher}

/-! ## What is refused -/

/-- The matchers are selected if all of them are known, and none comes twice or was seen before. -/
theorem exists_select_iff {seen : List String} :
    (∃ selected, select c disabled seen ms = .ok selected) ↔
      (∀ m ∈ ms, c.contains m.id = true) ∧ (ms.map (·.id)).Nodup ∧ ∀ m ∈ ms, m.id ∉ seen := by
  constructor
  · intro h
    induction ms generalizing seen with
    | nil => simp
    | cons m ms ih =>
        obtain ⟨selected, h⟩ := h
        obtain ⟨e, he, h⟩ := exists_of_bind_eq_ok h
        have hknown := Catalog.contains_of_lookup he
        obtain ⟨_, hlookup, hid⟩ := Catalog.lookup_of_contains hknown
        obtain rfl := Except.ok.inj (hlookup.symm.trans he)
        dsimp only at h
        split at h
        · cases h
        next hfresh =>
          obtain ⟨rest, hrest, -⟩ := exists_of_bind_eq_ok h
          obtain ⟨hknown', hnodup, hunseen⟩ := ih ⟨rest, hrest⟩
          rw [hid] at hfresh hunseen
          refine ⟨List.forall_mem_cons.2 ⟨hknown, hknown'⟩, List.nodup_cons.2 ⟨?_, hnodup⟩,
            List.forall_mem_cons.2 ⟨by simpa using hfresh, ?_⟩⟩
          · intro hmem
            obtain ⟨m', hm', heq⟩ := List.mem_map.1 hmem
            exact hunseen m' hm' (heq ▸ List.mem_cons_self)
          · intro m' hm' hmem
            exact hunseen m' hm' (List.mem_cons_of_mem _ hmem)
  · rintro ⟨hknown, hnodup, hunseen⟩
    exact ⟨_, select_eq hknown hnodup hunseen⟩

/-- A dispatcher is made of known matchers without a repetition, where what is disabled is known
too. -/
theorem exists_register_iff :
    (∃ d, register c ms disabled = .ok d) ↔ (∀ id ∈ disabled, c.contains id = true) ∧
      (∀ m ∈ ms, c.contains m.id = true) ∧ (ms.map (·.id)).Nodup := by
  constructor
  · rintro ⟨d, h⟩
    obtain ⟨_, hdisabled, h⟩ := exists_of_bind_eq_ok h
    obtain ⟨selected, hselect, -⟩ := exists_of_bind_eq_ok h
    obtain ⟨hknown, hnodup, -⟩ := exists_select_iff.1 ⟨selected, hselect⟩
    refine ⟨?_, hknown, hnodup⟩
    by_contra hunknown
    obtain ⟨id, -, hrefused⟩ := Catalog.forM_lookup_refused hunknown
    rw [hrefused] at hdisabled
    cases hdisabled
  · rintro ⟨hdisabled, hknown, hnodup⟩
    obtain ⟨d, hmake, -⟩ := exists_register hdisabled hknown hnodup
    exact ⟨d, hmake⟩

/-! ## One order only -/

theorem Ranked.eq_filter {ids : List String} (h : Ranked c ids)
    (hknown : ∀ id ∈ ids, c.contains id = true) : ids = c.ids.filter (· ∈ ids) := by
  have hids : Ranked c (ids.map id) := by rwa [List.map_id]
  have hcatalog : Ranked c ((c.ids.filter (· ∈ ids)).map id) := by
    rw [List.map_id]
    exact c.pairwise_rank.filter _
  refine hids.eq_of_perm hcatalog ?_
  rw [List.perm_ext_iff_of_nodup hids.nodup hcatalog.nodup]
  intro id
  rw [List.mem_filter, decide_eq_true_eq, ← Catalog.contains_iff_mem_ids]
  exact ⟨fun hid => ⟨hknown id hid, hid⟩, And.right⟩

theorem holds_of_register (h : register c ms disabled = .ok d) :
    d.catalog = c ∧ (∀ m, m ∈ d.matchers ↔ m ∈ ms ∧ m.id ∉ disabled) ∧
      Ranked c (d.matchers.map (·.id)) := by
  obtain ⟨hdisabled, hknown, hnodup⟩ := exists_register_iff.1 ⟨d, h⟩
  obtain ⟨d', hmake, hholds⟩ := exists_register hdisabled hknown hnodup
  obtain rfl := Except.ok.inj (h.symm.trans hmake)
  exact hholds

theorem featureIds_of_register (h : register c ms disabled = .ok d) :
    d.featureIds = c.ids.filter fun id => id ∈ ms.map (·.id) ∧ id ∉ disabled := by
  obtain ⟨-, hholds, hranked⟩ := holds_of_register h
  have hmem : ∀ id, id ∈ d.featureIds ↔ id ∈ ms.map (·.id) ∧ id ∉ disabled := by
    intro id
    simp only [featureIds, List.mem_map, hholds]
    constructor
    · rintro ⟨m, ⟨hm, henabled⟩, rfl⟩
      exact ⟨⟨m, hm, rfl⟩, henabled⟩
    · rintro ⟨⟨m, hm, rfl⟩, henabled⟩
      exact ⟨m, ⟨hm, henabled⟩, rfl⟩
  have hknown : ∀ id ∈ d.featureIds, c.contains id = true := by
    intro id hid
    obtain ⟨m, hm, rfl⟩ := List.mem_map.1 hid
    exact ((of_register h).2 m hm).2
  have hfeatures : Ranked c d.featureIds := hranked
  rw [hfeatures.eq_filter hknown]
  refine List.filter_congr fun id _ => ?_
  exact decide_eq_decide.2 (hmem id)

/-- Dispatchers that are made of the same matchers, and without the same features, are one. -/
theorem eq_of_register_of_perm {d' : Dispatcher} (hperm : ms'.Perm ms)
    (hsame : ∀ id, id ∈ disabled' ↔ id ∈ disabled) (h : register c ms disabled = .ok d)
    (h' : register c ms' disabled' = .ok d') : d' = d := by
  obtain ⟨hcatalog, hholds, hranked⟩ := holds_of_register h
  obtain ⟨hcatalog', hholds', hranked'⟩ := holds_of_register h'
  have hmem : ∀ m, m ∈ d'.matchers ↔ m ∈ d.matchers := by
    intro m
    rw [hholds, hholds', hperm.mem_iff, hsame]
  have hmatchers : d'.matchers = d.matchers := by
    refine hranked'.eq_of_perm hranked ?_
    exact (List.perm_ext_iff_of_nodup hranked'.nodup hranked.nodup).2 hmem
  obtain ⟨catalog, matchers⟩ := d
  obtain ⟨catalog', matchers'⟩ := d'
  cases hmatchers
  cases hcatalog
  cases hcatalog'
  rfl

theorem exists_register_iff_of_perm (hperm : ms'.Perm ms)
    (hsame : ∀ id, id ∈ disabled' ↔ id ∈ disabled) :
    (∃ d, register c ms' disabled' = .ok d) ↔ ∃ d, register c ms disabled = .ok d := by
  rw [exists_register_iff, exists_register_iff, (hperm.map _).nodup_iff]
  refine and_congr ?_ (and_congr_left fun _ => ?_)
  · exact forall_congr' fun id => imp_congr_left (hsame id)
  · exact forall_congr' fun m => imp_congr_left hperm.mem_iff

theorem exists_error_iff :
    (∃ e, register c ms disabled = .error e) ↔ ¬ ∃ d, register c ms disabled = .ok d := by
  cases register c ms disabled with
  | error e => simp
  | ok d => simp

end Dispatcher

open Dispatcher in
/-- The order in which matchers are registered does not matter, and neither does the order in which
features are disabled: both orders are refused or neither is, and where the matchers are known and
of different features, both list the enabled features as the catalog does, show a fragment to the
same matchers, and find and note the same in the same order. -/
theorem dispatch_in_any_order {c : Catalog} {ms ms' : List Examiner} (hperm : ms'.Perm ms)
    {disabled disabled' : List String} (hsame : ∀ id, id ∈ disabled' ↔ id ∈ disabled) :
    ((∃ e, register c ms' disabled' = .error e) ↔ ∃ e, register c ms disabled = .error e) ∧
    ((∀ id ∈ disabled, id ∈ c.ids) → (∀ m ∈ ms, m.id ∈ c.ids) → (ms.map (·.id)).Nodup →
      ∃ d d', register c ms disabled = .ok d ∧ register c ms' disabled' = .ok d' ∧
        (d.featureIds = c.ids.filter fun id => id ∈ ms.map (·.id) ∧ id ∉ disabled) ∧
        d'.featureIds = d.featureIds ∧
        (∀ kind, d'.matchersFor kind = d.matchersFor kind) ∧
        (∀ f, d'.examine f = d.examine f) ∧ ∀ fs, d'.run fs = d.run fs) := by
  refine ⟨?_, ?_⟩
  · rw [exists_error_iff, exists_error_iff, exists_register_iff_of_perm hperm hsame]
  · intro hdisabled hknown hnodup
    simp only [← Catalog.contains_iff_mem_ids] at hdisabled hknown
    obtain ⟨d, hmake⟩ := exists_register_iff.2 ⟨hdisabled, hknown, hnodup⟩
    obtain ⟨d', hmake'⟩ := (exists_register_iff_of_perm hperm hsame).2 ⟨d, hmake⟩
    obtain rfl := eq_of_register_of_perm hperm hsame hmake hmake'
    exact ⟨_, _, hmake, hmake', featureIds_of_register hmake, rfl, fun _ => rfl, fun _ => rfl,
      fun _ => rfl⟩

open Dispatcher in
/-- The contestants backwards, with one of them disabled twice. -/
theorem dispatch_in_any_order_backwards :
    contestants.reverse.Perm contestants ∧
    (∀ id, id ∈ ["static-b", "static-b"] ↔ id ∈ ["static-b"]) ∧
    ∃ d d', register contestedCatalog contestants ["static-b"] = .ok d ∧
      register contestedCatalog contestants.reverse ["static-b", "static-b"] = .ok d' ∧
      d.featureIds = ["arity-a", "static-a", "size", "arity-b", "doubtful"] ∧
      d'.featureIds = d.featureIds ∧
      d'.examine contestedFragment = d.examine contestedFragment := by
  have hsame : ∀ id, id ∈ ["static-b", "static-b"] ↔ id ∈ ["static-b"] := by simp
  have hperm : contestants.reverse.Perm contestants := List.reverse_perm _
  obtain ⟨-, hmade⟩ := dispatch_in_any_order (c := contestedCatalog) hperm hsame
  obtain ⟨d, d', hmake, hmake', hids, hids', -, hexamine, -⟩ :=
    hmade (by decide) (by decide) (by decide)
  exact ⟨hperm, hsame, d, d', hmake, hmake', hids.trans (by decide), hids', hexamine _⟩

end CxxFloor
