/-
# Disabled features

A disabled feature is not looked for, and no other feature notices.  That is
not plain from the way a fragment is judged: where two features claim one slot,
both are withdrawn, so disabling one of them could bring the other one back.
It cannot happen, since no slot is ever contested (`examine_standard`).  The
rest is that each later step treats entries one by one: the two sorts are
stable, and the tally counts each feature apart.
-/
import CxxFloor.Proofs.Feature.Slots
import CxxFloor.Proofs.Order

namespace CxxFloor

namespace Dispatcher

variable (disabled : List String)

theorem matchers_standard : (standard disabled).matchers
    = (standard []).matchers.filter fun m => !disabled.contains m.id := by
  have hall : standardExaminers.filter (fun m => !([] : List String).contains m.id)
      = standardExaminers := List.filter_eq_self.2 fun m _ => rfl
  show List.mergeSort _ _ = (List.mergeSort (standardExaminers.filter _) _).filter _
  rw [hall]
  refine mergeSort_filter (fun x y z hxy hyz => ?_) (fun x y => ?_) _ _
  · simp only [decide_eq_true_eq] at *
    omega
  · simp only [Bool.or_eq_true, decide_eq_true_eq]
    omega

theorem matchersFor_standard (kind : FragmentKind) : (standard disabled).matchersFor kind
    = ((standard []).matchersFor kind).filter fun m => !disabled.contains m.id := by
  show ((standard disabled).matchers).filter _ = _
  rw [matchers_standard, List.filter_filter]
  show _ = (((standard []).matchers).filter _).filter _
  rw [List.filter_filter]
  exact List.filter_congr fun m _ => Bool.and_comm _ _

/-- Leaving matchers out leaves out what they say. -/
theorem filterMap_outcome_filter {α : Type} {of : Outcome → Option α} {feature : α → String}
    {f : Fragment} (hof : ∀ {m : Examiner} {a}, of (m.outcome f) = some a → feature a = m.id)
    (ms : List Examiner) :
    ((ms.filter fun m => !disabled.contains m.id).map (·.outcome f)).filterMap of
      = ((ms.map (·.outcome f)).filterMap of).filter fun a => !disabled.contains (feature a) := by
  rw [List.filterMap_map, List.filterMap_map, List.filter_filterMap, List.filterMap_filter]
  refine List.filterMap_congr fun m _ => ?_
  cases ho : of (m.outcome f) with
  | none => simp [ho]
  | some a =>
      rw [← hof ho]
      simp [ho, Option.filter]

theorem claims_standard (f : Fragment) : (standard disabled).claims f
    = ((standard []).claims f).filter fun m => !disabled.contains m.feature := by
  unfold claims
  rw [matchersFor_standard]
  exact filterMap_outcome_filter disabled feature_of_match? _

theorem doubts_standard (f : Fragment) : (standard disabled).doubts f
    = ((standard []).doubts f).filter fun n => !disabled.contains n.feature := by
  unfold doubts
  rw [matchersFor_standard]
  exact filterMap_outcome_filter disabled feature_of_note? _

theorem run_standard (fs : List Fragment) : (standard disabled).run fs
    = ⟨((standard []).run fs).found.filter fun m => !disabled.contains m.feature,
      ((standard []).run fs).notes.filter fun n => !disabled.contains n.feature⟩ := by
  unfold run MatchSet.join
  simp only [List.flatMap_map, examine_standard, List.filter_flatMap, claims_standard disabled,
    doubts_standard disabled]

end Dispatcher

theorem Catalog.tally_filter (c : Catalog) (p : String → Bool) (ids : List String) :
    c.tally (ids.filter p) = (c.tally ids).filter fun entry => p entry.1 := by
  unfold tally
  rw [List.filter_map, List.filter_map, List.filter_map, List.filter_filter]
  have hcount : ∀ id, (ids.filter p).count id = if p id = true then ids.count id else 0 := by
    intro id
    split
    next h => exact List.count_filter h
    next h =>
      refine List.count_eq_zero_of_not_mem fun hmem => ?_
      exact h (List.mem_filter.1 hmem).2
  have hfilter : c.ids.filter ((fun entry : String × Nat => decide (0 < entry.2))
        ∘ fun id => (id, (ids.filter p).count id))
      = c.ids.filter fun id => p id && decide (0 < ids.count id) := by
    refine List.filter_congr fun id _ => ?_
    simp only [Function.comp, hcount]
    cases p id <;> simp
  rw [hfilter]
  refine List.map_congr_left fun id hid => ?_
  have hp : p id = true := (Bool.and_eq_true_iff.1 (List.mem_filter.1 hid).2).1
  rw [hcount, if_pos hp]

/-- The classification of the matches of some features. -/
theorem Classification.of_filter (p : String → Bool) (matched : List Match) (c : Catalog)
    (floor : Int) :
    (of (matched.filter fun m => p m.feature) c floor).findings
      = (of matched c floor).findings.filter (fun m => p m.feature) ∧
    (of (matched.filter fun m => p m.feature) c floor).byFeature
      = (of matched c floor).byFeature.filter fun entry => p entry.1 := by
  have hsorted := mergeSort_filter (Catalog.findingLe_trans (c := c)) Catalog.findingLe_total
    (fun m => p m.feature) matched
  refine ⟨hsorted, ?_⟩
  show c.tally _ = (c.tally _).filter _
  rw [← Catalog.tally_filter, hsorted, List.filter_map]
  rfl

theorem Classification.required_of_nil {matched : List Match} {c : Catalog} {floor : Int}
    (h : (of matched c floor).findings = []) : (of matched c floor).required = floor := by
  show (c.newest? ((of matched c floor).findings.map (·.feature))).getD floor = floor
  rw [h]
  rfl

/-- Disabling features filters the report and does nothing else.  The findings and the notes are
those of the other features in the order they had, the tally is theirs, the diagnostics stay, and
the floor is enough when nothing is left.

The reason is stated with it: whatever the fragment, no two of the matchers that share a slot
claim it, so a dispatcher keeps all that its matchers find and adds no note of its own. -/
theorem disabling_filters {disabled : List String}
    (hdisabled : ∀ id ∈ disabled, standardCatalog.contains id = true) (name text : String)
    (floor : Int) :
    (∃ all left, classifyText name text standardCatalog floor [] = .ok all ∧
      classifyText name text standardCatalog floor disabled = .ok left ∧
      left.name = all.name ∧
      left.classification.findings
        = all.classification.findings.filter (fun m => !disabled.contains m.feature) ∧
      left.notes = all.notes.filter (fun n => !disabled.contains n.feature) ∧
      left.diagnostics = all.diagnostics ∧
      left.classification.byFeature
        = all.classification.byFeature.filter (fun entry => !disabled.contains entry.1) ∧
      (left.classification.findings = [] → left.required = floor)) ∧
    (∀ (f : Fragment) (slot : String), ∀ m ∈ standardMatchers, ∀ m' ∈ standardMatchers,
      standardCatalog.slot? m.id = some slot → standardCatalog.slot? m'.id = some slot →
      m.Claims f → m'.Claims f → m = m') ∧
    ∃ d, Dispatcher.make standardCatalog standardMatchers disabled = .ok d ∧
      ∀ f, d.examine f = ⟨d.claims f, d.doubts f⟩ := by
  refine ⟨⟨_, _, classifyText_standard (by simp) name text floor,
    classifyText_standard hdisabled name text floor, rfl, ?_, ?_, rfl, ?_, ?_⟩, ?_,
    ⟨_, Dispatcher.make_standard hdisabled, fun f => Dispatcher.examine_standard disabled f⟩⟩
  · show (Classification.of _ _ _).findings = _
    rw [Dispatcher.run_standard]
    exact (Classification.of_filter (fun id => !disabled.contains id) _ _ _).1
  · show List.mergeSort _ _ = _
    rw [Dispatcher.run_standard]
    exact mergeSort_filter Catalog.noteLe_trans Catalog.noteLe_total _ _
  · show (Classification.of _ _ _).byFeature = _
    rw [Dispatcher.run_standard]
    exact (Classification.of_filter (fun id => !disabled.contains id) _ _ _).2
  · exact Classification.required_of_nil
  · intro f slot m hm m' hm' h h' hclaims hclaims'
    exact eq_of_claims hm hm' h h' hclaims hclaims'

/-- A conditional directive and a literal, the directive disabled. -/
theorem disabling_filters_directive :
    (∀ id ∈ ["elifdef-directive"], standardCatalog.contains id = true) ∧
      ∃ all left, classifyText "a" "#elifdef A\nauto n = 1uz;" standardCatalog 20 [] = .ok all ∧
        classifyText "a" "#elifdef A\nauto n = 1uz;" standardCatalog 20 ["elifdef-directive"]
          = .ok left ∧
        left.notes = all.notes.filter (fun n => !(["elifdef-directive"].contains n.feature)) := by
  have hdisabled : ∀ id ∈ ["elifdef-directive"], standardCatalog.contains id = true := by
    decide +kernel
  obtain ⟨⟨all, left, hall, hleft, -, -, hnotes, -⟩, -⟩ :=
    disabling_filters hdisabled "a" "#elifdef A\nauto n = 1uz;" 20
  exact ⟨hdisabled, all, left, hall, hleft, hnotes⟩

end CxxFloor
