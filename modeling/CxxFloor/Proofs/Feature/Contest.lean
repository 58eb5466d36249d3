/-
# What becomes of contested claims

Where several features of one slot are claimed in a fragment, a dispatcher
withdraws all of them and leaves a note.  What it makes of any claims is said
here of any catalog (`Dispatcher.Settles`): the claims that stand are those
without a rival, in catalog order; the others are candidates of one note each,
one note for each slot with several claims; and nothing else is added or lost.
So no two claims that stand share a slot.

It rests on two things only.  The slot of a claim is read off its feature, so
withdrawing by feature withdraws exactly the rivals; and a dispatcher holds its
matchers in strict catalog order, so no feature is claimed twice.  That the
standard matchers never contest a slot (`examine_standard`) is a fact about
them; this one is about all examiners, whatever they say of their features and
wherever they point, and holds where several slots are contested at once.
-/
import CxxFloor.Proofs.Feature.Slots
import CxxFloor.Proofs.Order
import Mathlib.Data.Multiset.Basic

namespace CxxFloor

theorem nodup_eraseDups {α : Type} [BEq α] [LawfulBEq α] (as : List α) : as.eraseDups.Nodup := by
  induction h : as.length using Nat.strong_induction_on generalizing as with
  | _ n ih =>
      cases as with
      | nil => exact List.nodup_nil
      | cons a as =>
          rw [List.eraseDups_cons]
          have hlength : (as.filter fun b => !(b == a)).length < n := by
            have := List.length_filter_le (fun b => !(b == a)) as
            rw [List.length_cons] at h
            omega
          refine List.nodup_cons.2 ⟨fun hmem => ?_, ih _ hlength _ rfl⟩
          have hne := (List.mem_filter.1 (List.mem_eraseDups.1 hmem)).2
          simp at hne

namespace Dispatcher

variable {c : Catalog} {ms : List Match} {a : Match} {slot : String}

/-! ## Slots -/

def Contested (c : Catalog) (ms : List Match) (slot : String) : Prop :=
  ∃ a ∈ ms, ∃ b ∈ ms, a ≠ b ∧ slotOf? c a = some slot ∧ slotOf? c b = some slot

theorem mem_rivals : a ∈ rivals c ms slot ↔ a ∈ ms ∧ slotOf? c a = some slot := by
  simp [rivals, List.mem_filter]

theorem mem_slotsOf : slot ∈ slotsOf c ms ↔ ∃ a ∈ ms, slotOf? c a = some slot := by
  simp [slotsOf, List.mem_eraseDups, List.mem_filterMap]

theorem mem_contested (hnodup : ms.Nodup) : slot ∈ contested c ms ↔ Contested c ms slot := by
  simp only [contested, List.mem_filter, mem_slotsOf, decide_eq_true_eq]
  have hrivals : (rivals c ms slot).Nodup := hnodup.filter _
  constructor
  · rintro ⟨-, hlength⟩
    match hr : rivals c ms slot with
    | [] => simp [hr] at hlength
    | [_] => simp [hr] at hlength
    | a :: b :: rest =>
        have ha : a ∈ rivals c ms slot := by rw [hr]; exact List.mem_cons_self
        have hb : b ∈ rivals c ms slot := by
          rw [hr]
          exact List.mem_cons_of_mem _ List.mem_cons_self
        have hne : a ≠ b := by
          rw [hr] at hrivals
          rintro rfl
          exact (List.nodup_cons.1 hrivals).1 List.mem_cons_self
        obtain ⟨ha, hslot⟩ := mem_rivals.1 ha
        obtain ⟨hb, hslot'⟩ := mem_rivals.1 hb
        exact ⟨a, ha, b, hb, hne, hslot, hslot'⟩
  · rintro ⟨a, ha, b, hb, hne, hslot, hslot'⟩
    refine ⟨⟨a, ha, hslot⟩, ?_⟩
    match hr : rivals c ms slot with
    | [] =>
        have := mem_rivals.2 ⟨ha, hslot⟩
        simp [hr] at this
    | [r] =>
        have ha := mem_rivals.2 ⟨ha, hslot⟩
        have hb := mem_rivals.2 ⟨hb, hslot'⟩
        rw [hr, List.mem_singleton] at ha hb
        exact absurd (ha.trans hb.symm) hne
    | _ :: _ :: _ => simp

theorem slotOf?_of_feature {b : Match} (h : a.feature = b.feature) :
    slotOf? c a = slotOf? c b := by
  simp [slotOf?, h]

theorem feature_mem_candidates {f : Fragment} (ha : a ∈ ms) :
    a.feature ∈ (conflict c f ms slot).candidates ↔ slotOf? c a = some slot := by
  show a.feature ∈ (rivals c ms slot).map (·.feature) ↔ _
  constructor
  · intro h
    obtain ⟨b, hb, hfeature⟩ := List.mem_map.1 h
    rw [← slotOf?_of_feature hfeature]
    exact (mem_rivals.1 hb).2
  · intro hslot
    exact List.mem_map_of_mem (mem_rivals.2 ⟨ha, hslot⟩)

theorem mem_found_enforceSlots (hnodup : ms.Nodup) (f : Fragment) :
    a ∈ (enforceSlots c f ms).found ↔
      a ∈ ms ∧ ∀ b ∈ ms, ∀ slot, slotOf? c a = some slot → slotOf? c b = some slot → b = a := by
  simp only [enforceSlots, List.mem_filter, Bool.not_eq_true', List.contains_eq_mem,
    decide_eq_false_iff_not, List.mem_flatMap, not_exists, not_and]
  refine and_congr_right fun ha => ?_
  constructor
  · intro hstands b hb slot hslot hslot'
    by_contra hne
    have hcontested := (mem_contested hnodup).2 ⟨b, hb, a, ha, hne, hslot', hslot⟩
    exact hstands slot hcontested (List.mem_map_of_mem (mem_rivals.2 ⟨ha, hslot⟩))
  · intro halone slot hcontested hwithdrawn
    have hslot := (feature_mem_candidates (f := f) ha).1 hwithdrawn
    obtain ⟨b, hb, b', hb', hne, hb_slot, hb'_slot⟩ := (mem_contested hnodup).1 hcontested
    exact hne ((halone b hb slot hslot hb_slot).trans (halone b' hb' slot hslot hb'_slot).symm)

/-! ## Claims in catalog order -/

def Ranked (c : Catalog) (ids : List String) : Prop := ids.Pairwise fun a b => c.rank a < c.rank b

theorem Ranked.nodup {α : Type} {feature : α → String} {as : List α}
    (h : Ranked c (as.map feature)) : as.Nodup := by
  refine (List.pairwise_map.1 h).imp fun hlt heq => ?_
  rw [heq] at hlt
  exact Nat.lt_irrefl _ hlt

/-- What is in strict catalog order by its ids is put into that order in one way only. -/
theorem Ranked.eq_of_perm {α : Type} {id : α → String} {as bs : List α}
    (ha : Ranked c (as.map id)) (hb : Ranked c (bs.map id)) (hperm : as.Perm bs) : as = bs := by
  have ha := List.pairwise_map.1 ha
  have hb := List.pairwise_map.1 hb
  refine List.Perm.eq_of_pairwise ?_ ha hb hperm
  intro a b _ _ hlt hgt
  exact absurd hlt (Nat.lt_asymm hgt)

/-- Of matchers in catalog order the outcomes are too, whatever kind of outcome is kept. -/
theorem ranked_outcomes {α : Type} {of : Outcome → Option α} {feature : α → String}
    (hfeature : ∀ (m : Examiner) (f : Fragment) (r : α), of (m.outcome f) = some r → feature r = m.id)
    {matchers : List Examiner} (h : Ranked c (matchers.map (·.id))) (f : Fragment) :
    Ranked c (((matchers.map (·.outcome f)).filterMap of).map feature) := by
  rw [List.filterMap_map]
  refine List.pairwise_map.2 (List.Pairwise.filterMap _ ?_ (List.pairwise_map.1 h))
  intro m m' hlt r hr r' hr'
  rw [hfeature m f r hr, hfeature m' f r' hr']
  exact hlt

/-- A dispatcher of matchers with different ids, all in the catalog, is made, and holds those that
are not disabled in strict catalog order. -/
theorem exists_register {matchers : List Examiner} {disabled : List String}
    (hdisabled : ∀ id ∈ disabled, c.contains id = true)
    (hknown : ∀ m ∈ matchers, c.contains m.id = true) (hnodup : (matchers.map (·.id)).Nodup) :
    ∃ d, register c matchers disabled = .ok d ∧ d.catalog = c ∧
      (∀ m, m ∈ d.matchers ↔ m ∈ matchers ∧ m.id ∉ disabled) ∧
      Ranked c (d.matchers.map (·.id)) := by
  have hselect : select c disabled [] matchers =
      .ok (matchers.filter fun m => !disabled.contains m.id) :=
    select_eq hknown hnodup (by simp)
  have hlookup := Catalog.forM_lookup (c := c) (f := id) hdisabled
  have hmake : register c matchers disabled = .ok ⟨c,
      (matchers.filter fun m => !disabled.contains m.id).mergeSort fun a b =>
        positionOf c a ≤ positionOf c b⟩ := by
    unfold register
    simp only [id] at hlookup
    rw [hlookup, hselect]
    rfl
  refine ⟨_, hmake, rfl, ?_, ?_⟩
  · intro m
    simp [List.mem_mergeSort, List.mem_filter]
  · have hsorted : ((matchers.filter fun m => !disabled.contains m.id).mergeSort fun a b =>
        decide (positionOf c a ≤ positionOf c b)).Pairwise
          fun a b => decide (positionOf c a ≤ positionOf c b) = true := by
      refine List.pairwise_mergeSort ?_ ?_ _
      · intro x y z hxy hyz
        simp only [decide_eq_true_eq] at hxy hyz ⊢
        exact Nat.le_trans hxy hyz
      · intro x y
        simp only [Bool.or_eq_true, decide_eq_true_eq]
        exact Nat.le_total _ _
    have hids : ((matchers.filter fun m => !disabled.contains m.id).mergeSort fun a b =>
        decide (positionOf c a ≤ positionOf c b)).Pairwise fun a b => a.id ≠ b.id :=
      ((List.pairwise_map.1 hnodup).filter _).perm (List.mergeSort_perm _ _).symm fun h => h.symm
    refine List.pairwise_map.2 (List.Pairwise.imp_of_mem ?_ (hsorted.and hids))
    rintro a b ha - ⟨hle, hne⟩
    have hle : c.rank a.id ≤ c.rank b.id := of_decide_eq_true hle
    have ha := hknown a (List.mem_filter.1 (List.mem_mergeSort.1 ha)).1
    exact Nat.lt_of_le_of_ne hle fun hrank => hne (Catalog.eq_of_rank_eq ha hrank)

/-! ## The settlement -/

/-- What `kept` makes of the claims and doubts on a fragment, each in catalog order. -/
structure Settles (c : Catalog) (f : Fragment) (claims : List Match) (doubts : List Note)
    (kept : MatchSet) : Prop where
  claims_ranked : Ranked c (claims.map (·.feature))
  doubts_ranked : Ranked c (doubts.map (·.feature))
  /-- What stands is taken from the claims, in their order. -/
  found_sublist : kept.found.Sublist claims
  /-- A claim stands if no other claim shares its slot. -/
  mem_found : ∀ a, a ∈ kept.found ↔
    a ∈ claims ∧ ∀ b ∈ claims, ∀ slot, slotOf? c a = some slot → slotOf? c b = some slot → b = a
  slots_apart : SlotsApart c kept.found
  /-- Behind the doubts stands one note for each contested slot, which names the features that
  claim it in catalog order.  A claim stands or is named by exactly one of these notes. -/
  notes : ∃ slots : List String, slots.Nodup ∧ (∀ slot, slot ∈ slots ↔ Contested c claims slot) ∧
    kept.notes = doubts ++ slots.map (conflict c f claims) ∧
    (∀ slot, Ranked c (conflict c f claims slot).candidates ∧
      ∀ id, id ∈ (conflict c f claims slot).candidates ↔
        ∃ a ∈ claims, a.feature = id ∧ slotOf? c a = some slot) ∧
    ∀ a ∈ claims,
      (a ∈ kept.found ∧ ∀ slot ∈ slots, a.feature ∉ (conflict c f claims slot).candidates) ∨
      (a ∉ kept.found ∧
        ∃ slot ∈ slots, a.feature ∈ (conflict c f claims slot).candidates ∧
          ∀ slot' ∈ slots, a.feature ∈ (conflict c f claims slot').candidates → slot' = slot)

theorem slotsApart_found (hnodup : ms.Nodup) (f : Fragment) :
    SlotsApart c (enforceSlots c f ms).found := by
  have hdistinct : (enforceSlots c f ms).found.Nodup := hnodup.filter _
  refine List.Pairwise.imp_of_mem ?_ hdistinct
  intro a b ha hb hne slot hslot hslot'
  have halone := ((mem_found_enforceSlots hnodup f).1 ha).2
  exact hne (halone b ((mem_found_enforceSlots hnodup f).1 hb).1 slot hslot hslot').symm

/-- A claim stands, or one note on a contested slot names it. -/
theorem stands_or_withdrawn (hnodup : ms.Nodup) (f : Fragment) (ha : a ∈ ms) :
    (a ∈ (enforceSlots c f ms).found ∧
      ∀ slot ∈ contested c ms, a.feature ∉ (conflict c f ms slot).candidates) ∨
    (a ∉ (enforceSlots c f ms).found ∧
      ∃ slot ∈ contested c ms, a.feature ∈ (conflict c f ms slot).candidates ∧
        ∀ slot' ∈ contested c ms, a.feature ∈ (conflict c f ms slot').candidates → slot' = slot) := by
  have hcandidate : ∀ slot, a.feature ∈ (conflict c f ms slot).candidates ↔
      slotOf? c a = some slot := fun slot => feature_mem_candidates ha
  by_cases hfound : a ∈ (enforceSlots c f ms).found
  · refine .inl ⟨hfound, fun slot hslot hmem => ?_⟩
    obtain ⟨b, hb, b', hb', hne, hb_slot, hb'_slot⟩ := (mem_contested hnodup).1 hslot
    have halone := ((mem_found_enforceSlots hnodup f).1 hfound).2
    have hslot := (hcandidate slot).1 hmem
    exact hne ((halone b hb slot hslot hb_slot).trans (halone b' hb' slot hslot hb'_slot).symm)
  · refine .inr ⟨hfound, ?_⟩
    have hrival : ¬ ∀ b ∈ ms, ∀ slot, slotOf? c a = some slot → slotOf? c b = some slot → b = a :=
      fun halone => hfound ((mem_found_enforceSlots hnodup f).2 ⟨ha, halone⟩)
    push Not at hrival
    obtain ⟨b, hb, slot, hslot, hslot', hne⟩ := hrival
    refine ⟨slot, (mem_contested hnodup).2 ⟨b, hb, a, ha, hne, hslot', hslot⟩,
      (hcandidate slot).2 hslot, fun slot' _ hmem => ?_⟩
    exact Option.some.inj (((hcandidate slot').1 hmem).symm.trans hslot)

theorem settles_examine {d : Dispatcher} (h : Ranked d.catalog (d.matchers.map (·.id)))
    (f : Fragment) : Settles d.catalog f (d.claims f) (d.doubts f) (d.examine f) := by
  have hshown : Ranked d.catalog ((d.matchersFor f.kind).map (·.id)) :=
    List.pairwise_map.2 ((List.pairwise_map.1 h).filter _)
  have hclaims : Ranked d.catalog ((d.claims f).map (·.feature)) :=
    ranked_outcomes (fun m f r hr => feature_of_match? hr) hshown f
  have hdoubts : Ranked d.catalog ((d.doubts f).map (·.feature)) :=
    ranked_outcomes (fun m f r hr => feature_of_note? hr) hshown f
  have hnodup := hclaims.nodup
  refine ⟨hclaims, hdoubts, List.filter_sublist, fun a => mem_found_enforceSlots hnodup f,
    slotsApart_found hnodup f, contested d.catalog (d.claims f), ?_, fun slot => mem_contested hnodup,
    rfl, fun slot => ⟨?_, fun id => ?_⟩, fun a ha => stands_or_withdrawn hnodup f ha⟩
  · exact (nodup_eraseDups _).filter _
  · exact List.pairwise_map.2 ((List.pairwise_map.1 hclaims).filter _)
  · show id ∈ (rivals d.catalog (d.claims f) slot).map (·.feature) ↔ _
    constructor
    · intro hid
      obtain ⟨a, ha, hfeature⟩ := List.mem_map.1 hid
      exact ⟨a, (mem_rivals.1 ha).1, hfeature, (mem_rivals.1 ha).2⟩
    · rintro ⟨a, ha, rfl, hslot⟩
      exact List.mem_map_of_mem (mem_rivals.2 ⟨ha, hslot⟩)

/-- What is claimed in a fragment is what the matchers shown its kind find there. -/
theorem mem_claims {d : Dispatcher} {f : Fragment} {r : Match} :
    r ∈ d.claims f ↔ ∃ m ∈ d.matchers, f.kind ∈ kindsOf d.catalog m ∧ m.outcome f = .found r := by
  simp only [claims, matchersFor, List.filterMap_map, List.mem_filterMap, List.mem_filter,
    List.contains_eq_mem, decide_eq_true_eq, and_assoc, Function.comp_apply, match?_eq_some]

/-- What is left open in a fragment is what the matchers shown its kind leave open there. -/
theorem mem_doubts {d : Dispatcher} {f : Fragment} {n : Note} :
    n ∈ d.doubts f ↔
      ∃ m ∈ d.matchers, f.kind ∈ kindsOf d.catalog m ∧ m.outcome f = .ambiguous n := by
  simp only [doubts, matchersFor, List.filterMap_map, List.mem_filterMap, List.mem_filter,
    List.contains_eq_mem, decide_eq_true_eq, and_assoc, Function.comp_apply, note?_eq_some]

end Dispatcher

open Dispatcher in
/-- For every catalog and all examiners of different features in it, none of them or some disabled,
there is a dispatcher.  It examines a fragment with the enabled ones that are registered for its
kind and settles what they claim: no two claims that stand share a slot, and every other claim is a
candidate of exactly one note.  Over fragments in a row it does so one by one. -/
theorem contested_claims_are_settled {c : Catalog} {matchers : List Examiner}
    {disabled : List String} (hdisabled : ∀ id ∈ disabled, c.contains id = true)
    (hknown : ∀ m ∈ matchers, c.contains m.id = true) (hnodup : (matchers.map (·.id)).Nodup) :
    ∃ d, register c matchers disabled = .ok d ∧
      (∀ f, Settles c f (d.claims f) (d.doubts f) (d.examine f) ∧
        (∀ r, r ∈ d.claims f ↔
          ∃ m ∈ matchers, m.id ∉ disabled ∧ f.kind ∈ kindsOf c m ∧ m.outcome f = .found r) ∧
        ∀ n, n ∈ d.doubts f ↔
          ∃ m ∈ matchers, m.id ∉ disabled ∧ f.kind ∈ kindsOf c m ∧ m.outcome f = .ambiguous n) ∧
      ∀ fs, (d.run fs).found = fs.flatMap (fun f => (d.examine f).found) ∧
        (d.run fs).notes = fs.flatMap fun f => (d.examine f).notes := by
  obtain ⟨d, hmake, rfl, hmatchers, hranked⟩ := exists_register hdisabled hknown hnodup
  refine ⟨d, hmake, fun f => ⟨settles_examine hranked f, fun r => ?_, fun n => ?_⟩, fun fs => ?_⟩
  · simp only [mem_claims, hmatchers, and_assoc]
  · simp only [mem_doubts, hmatchers, and_assoc]
  · exact ⟨List.flatMap_map .., List.flatMap_map ..⟩

/-- It finds its feature in every operator. -/
def claimant (id : String) : Examiner :=
  Matcher.examiner ⟨id, [.operatorDefinition], fun _ => .found none⟩

/-- It leaves its feature open wherever there is an operator, and points at the start of the file
instead of the operator. -/
def doubter : Examiner where
  id := "doubtful"
  kinds := [.operatorDefinition]
  outcome _ := .ambiguous ⟨⟨1, 1, 0, ""⟩, "doubtful", "unclear", ["doubtful"]⟩
  own _ _ h := (Option.some.inj h).symm

/-- Of the catalog's two slots two features claim each, one feature has no slot and one is left
open. -/
def contestants : List Examiner :=
  [claimant "size", claimant "arity-b", claimant "static-a", doubter, claimant "static-b",
   claimant "arity-a"]

/-- The contestants in the order of their catalog. -/
def rankedContestants : List Examiner :=
  [claimant "arity-a", claimant "static-a", claimant "size", claimant "arity-b",
   claimant "static-b", doubter]

/-- The catalog of the contestants. -/
def contestedCatalog : Catalog where
  entries :=
    [{ id := "arity-a", minStandard := 23, slot := some "arity" },
     { id := "static-a", minStandard := 23, slot := some "static" },
     { id := "size", minStandard := 23 },
     { id := "arity-b", minStandard := 23, slot := some "arity" },
     { id := "static-b", minStandard := 23, slot := some "static" },
     { id := "doubtful", minStandard := 23, slot := some "static" }]
  nodup := by decide

/-- An operator as a fragment. -/
def contestedFragment : Fragment :=
  { kind := .operatorDefinition, file := "a.cpp", start := ⟨1, 1, 0⟩, stop := 13
    text := "int operator[]", tokens := #[] }

open Dispatcher in
theorem register_contestants :
    register contestedCatalog contestants [] = .ok ⟨contestedCatalog, rankedContestants⟩ := by
  have hranked : Ranked contestedCatalog (rankedContestants.map (·.id)) := by
    unfold Ranked
    decide
  have hmem : ∀ m, m ∈ contestants ↔ m ∈ rankedContestants := by
    intro m
    simp only [contestants, rankedContestants, List.mem_cons, List.not_mem_nil, or_false]
    tauto
  obtain ⟨⟨catalog, matchers⟩, hmake, rfl, hholds, hranked'⟩ :=
    @exists_register contestedCatalog contestants [] (by decide) (by decide) (by decide)
  obtain rfl : matchers = rankedContestants := by
    refine hranked'.eq_of_perm hranked ?_
    rw [List.perm_ext_iff_of_nodup hranked'.nodup hranked.nodup]
    intro m
    rw [hholds, hmem]
    simp
  exact hmake

open Dispatcher in
/-- Two slots are contested at once: the feature without a slot stands, and there is a note for each
slot behind the one for what is left open. -/
theorem contested_claims_are_settled_twice :
    ∃ d, register contestedCatalog contestants [] = .ok d ∧
      (∀ f, Settles contestedCatalog f (d.claims f) (d.doubts f) (d.examine f)) ∧
      (d.examine contestedFragment).found.map (·.feature) = ["size"] ∧
      (d.examine contestedFragment).notes.map (·.candidates) =
        [["doubtful"], ["arity-a", "arity-b"], ["static-a", "static-b"]] := by
  obtain ⟨d, hmake, hsettles, -⟩ :=
    @contested_claims_are_settled contestedCatalog contestants [] (by decide) (by decide) (by decide)
  obtain rfl := Except.ok.inj (register_contestants.symm.trans hmake)
  exact ⟨_, hmake, fun f => (hsettles f).1, by decide +kernel, by decide +kernel⟩

end CxxFloor
