/-
# Fragments that are judged alike

Two fragments correspond if the matchers read the same of both and every span
points at places that stand in a given relation (`Fragment.Like`).  What is
found in them then corresponds, match by match and note by note
(`examine_like`), and so does what is found in two files whose fragments
correspond one by one (`run_like`).  The relation of places is left open:
between two layouts of one file it is not that between a file and a longer one.
-/
import CxxFloor.Proofs.Feature.Reading
import CxxFloor.Proofs.Feature.Standard
import Mathlib.Data.List.Forall2

namespace CxxFloor

variable {S : Spot → Spot → Prop}

/-- Matches of the same feature at places in the relation. -/
structure Match.Like (S : Spot → Spot → Prop) (a b : Match) : Prop where
  spot : S a.toSpot b.toSpot
  feature : a.feature = b.feature

/-- Notes of the same content at places in the relation. -/
structure Note.Like (S : Spot → Spot → Prop) (a b : Note) : Prop where
  spot : S a.toSpot b.toSpot
  feature : a.feature = b.feature
  reason : a.reason = b.reason
  candidates : a.candidates = b.candidates

/-- The matches correspond one by one, and the notes. -/
structure MatchSet.Like (S : Spot → Spot → Prop) (a b : MatchSet) : Prop where
  found : List.Forall₂ (Match.Like S) a.found b.found
  notes : List.Forall₂ (Note.Like S) a.notes b.notes

/-- The matchers read the same of both fragments, and whatever they point at corresponds. -/
structure Fragment.Like (S : Spot → Spot → Prop) (f g : Fragment) : Prop where
  view : f.view.Alike g.view
  spot : ∀ span, S (f.spot span) (g.spot span)

namespace MatchSet.Like

theorem join {as bs : List MatchSet} (h : List.Forall₂ (Like S) as bs) :
    Like S (.join as) (.join bs) :=
  ⟨List.rel_flatMap h fun _ _ hab => hab.found, List.rel_flatMap h fun _ _ hab => hab.notes⟩

end MatchSet.Like

namespace Dispatcher

/-! ## One fragment -/

section Outcomes

variable {m : Matcher} {f g : Fragment}

theorem examine_eq_of_like (hm : m ∈ standardMatchers) (hkind : m.kinds.contains f.kind = true)
    (h : f.Like S g) : m.examine f.view = m.examine g.view :=
  Matcher.examine_congr hm hkind h.view

theorem match?_like (hm : m ∈ standardMatchers) (hkind : m.kinds.contains f.kind = true)
    (h : f.Like S g) :
    Option.Rel (Match.Like S) (match? (m.outcome f)) (match? (m.outcome g)) := by
  unfold Matcher.outcome
  rw [← examine_eq_of_like hm hkind h]
  cases m.examine f.view with
  | absent => exact .none
  | found span => exact .some ⟨h.spot span, rfl⟩
  | ambiguous span reason candidates => exact .none

theorem note?_like (hm : m ∈ standardMatchers) (hkind : m.kinds.contains f.kind = true)
    (h : f.Like S g) :
    Option.Rel (Note.Like S) (note? (m.outcome f)) (note? (m.outcome g)) := by
  unfold Matcher.outcome
  rw [← examine_eq_of_like hm hkind h]
  cases m.examine f.view with
  | absent => exact .none
  | found span => exact .none
  | ambiguous span reason candidates => exact .some ⟨h.spot span, rfl, rfl, rfl⟩

end Outcomes

/-! ## Slots

Which slots are contested is a matter of the features alone. -/

section Slots

variable {c : Catalog} {ms ms' : List Match}

theorem features_eq_of_like (h : List.Forall₂ (Match.Like S) ms ms') :
    ms.map (·.feature) = ms'.map (·.feature) := by
  induction h with
  | nil => rfl
  | cons hm _ ih => exact congrArg₂ List.cons hm.feature ih

theorem rivals_like (h : List.Forall₂ (Match.Like S) ms ms') (slot : String) :
    List.Forall₂ (Match.Like S) (rivals c ms slot) (rivals c ms' slot) := by
  refine List.rel_filter (fun m m' hm => ?_) h
  simp only [slotOf?, hm.feature]

theorem contested_eq_of_like (h : List.Forall₂ (Match.Like S) ms ms') :
    contested c ms = contested c ms' := by
  have hslots : slotsOf c ms = slotsOf c ms' := by
    have hmap : ∀ ms : List Match, ms.filterMap (slotOf? c)
        = (ms.map (·.feature)).filterMap fun id => (c.find? id).bind (·.slot) := by
      intro ms
      rw [List.filterMap_map]
      rfl
    unfold slotsOf
    rw [hmap, hmap, features_eq_of_like h]
  unfold contested
  rw [hslots]
  refine List.filter_congr ?_
  intro slot _
  rw [(rivals_like (c := c) h slot).length_eq]

theorem enforceSlots_like {f g : Fragment} (hspot : S f.whole g.whole)
    (h : List.Forall₂ (Match.Like S) ms ms') :
    MatchSet.Like S (enforceSlots c f ms) (enforceSlots c g ms') := by
  have hids : ∀ slot, (rivals c ms slot).map (·.feature) = (rivals c ms' slot).map (·.feature) :=
    fun slot => features_eq_of_like (rivals_like h slot)
  unfold enforceSlots
  rw [contested_eq_of_like h]
  constructor
  · refine List.rel_filter (fun m m' hm => ?_) h
    simp only [hids, hm.feature]
  · refine List.rel_map (R := Eq) ?_ (List.forall₂_eq_eq_eq ▸ rfl)
    rintro slot _ rfl
    refine ⟨hspot, ?_, rfl, hids slot⟩
    show ((rivals c ms slot).map (·.feature)).headD "" = _
    rw [hids slot]
    rfl

end Slots

/-! ## Files -/

theorem examine_like {disabled : List String} {f g : Fragment} (h : f.Like S g) :
    MatchSet.Like S ((standard disabled).examine f) ((standard disabled).examine g) := by
  have hkind : f.kind = g.kind := h.view.kind
  have houtcomes : ∀ {α : Type} {R : α → α → Prop} (of : Outcome → Option α),
      (∀ m ∈ standardMatchers, m.kinds.contains f.kind = true →
        Option.Rel R (of (m.outcome f)) (of (m.outcome g))) →
      List.Forall₂ R ((((standard disabled).matchersFor f.kind).map (·.outcome f)).filterMap of)
        ((((standard disabled).matchersFor g.kind).map (·.outcome g)).filterMap of) := by
    intro α R of hof
    rw [List.filterMap_map, List.filterMap_map, ← hkind]
    refine List.rel_filterMap (R := fun e e' => e = e' ∧ e ∈ (standard disabled).matchersFor f.kind)
      ?_ (List.forall₂_same.2 fun e he => ⟨rfl, he⟩)
    rintro e _ ⟨rfl, he⟩
    obtain ⟨m, hstandard, rfl, hshown⟩ := kinds_contains_of_mem_matchersFor he
    exact hof m hstandard hshown
  have hfound := houtcomes match? fun m hm hshown => match?_like hm hshown h
  have hnotes := houtcomes note? fun m hm hshown => note?_like hm hshown h
  have hkept := enforceSlots_like (c := standardCatalog) (h.spot none) hfound
  exact ⟨hkept.found, List.rel_append hnotes hkept.notes⟩

theorem run_like (disabled : List String) {fs gs : List Fragment}
    (h : List.Forall₂ (Fragment.Like S) fs gs) :
    MatchSet.Like S ((standard disabled).run fs) ((standard disabled).run gs) :=
  .join (List.rel_map (fun _ _ hfg => examine_like hfg) h)

end Dispatcher

end CxxFloor
