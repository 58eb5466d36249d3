/-
# Slots of the standard catalog

Features that share a slot read the same shape, and the shape decides between
them: a signature has one symbol, a list of indices is empty or it is not, and
a type is deduced or it is not.  So of two matchers that share a slot at most
one claims a fragment (`Rivals.not_both`), and nothing that a standard
dispatcher finds is ever withdrawn (`examine_standard`).

This is said of every fragment, whatever its tokens, not only of those that a
scan cuts.  It is not true of every catalog: the catalog says which features
share a slot, and only the standard one is known to put rivals together.
-/
import CxxFloor.Proofs.Feature.Standard
import Mathlib.Data.List.Nodup

namespace CxxFloor

def Catalog.slot? (c : Catalog) (id : String) : Option String := (c.find? id).bind (·.slot)

/-- The matcher is shown the fragment, and finds its feature there. -/
def Matcher.Claims (m : Matcher) (f : Fragment) : Prop :=
  m.kinds.contains f.kind = true ∧ ∃ span, m.examine f.view = .found span

/-! ## Matchers that share a slot -/

/-- The pairs of standard matchers that share a slot. -/
inductive Rivals : Matcher → Matcher → Prop
  | static : Rivals staticCall staticSubscript
  | arity : Rivals manyIndices noIndex
  | objectParameter : Rivals deducedObjectParameter fixedObjectParameter

theorem mem_holders {m : Matcher} (hm : m ∈ standardMatchers) {slot : String}
    (h : standardCatalog.slot? m.id = some slot) :
    m ∈ standardMatchers.filter fun m => standardCatalog.slot? m.id == some slot :=
  List.mem_filter.2 ⟨hm, by rw [h, BEq.rfl]⟩

theorem rivals_of_slot? {m m' : Matcher} (hm : m ∈ standardMatchers) (hm' : m' ∈ standardMatchers)
    {slot : String} (h : standardCatalog.slot? m.id = some slot)
    (h' : standardCatalog.slot? m'.id = some slot) : m = m' ∨ Rivals m m' ∨ Rivals m' m := by
  have hslots : ∀ o ∈ standardMatchers.map fun m => standardCatalog.slot? m.id,
      o ∈ [none, some "operator-static", some "subscript-arity",
        some "explicit-object-parameter"] := by
    decide +kernel
  have hslot := hslots _ (List.mem_map_of_mem hm)
  simp only [h, List.mem_cons, Option.some.injEq, List.not_mem_nil, or_false, reduceCtorEq,
    false_or] at hslot
  have hpair : ∀ {k k' : Matcher}, Rivals k k' →
      standardMatchers.filter (fun m => standardCatalog.slot? m.id == some slot) = [k, k'] →
      m = m' ∨ Rivals m m' ∨ Rivals m' m := by
    intro k k' hk hholders
    have hmem := mem_holders hm h
    have hmem' := mem_holders hm' h'
    simp only [hholders, List.mem_cons, List.not_mem_nil, or_false] at hmem hmem'
    obtain ⟨rfl | rfl, rfl | rfl⟩ := And.intro hmem hmem'
    · exact .inl rfl
    · exact .inr (.inl hk)
    · exact .inr (.inr hk)
    · exact .inl rfl
  obtain rfl | rfl | rfl := hslot
  · exact hpair .static rfl
  · exact hpair .arity rfl
  · exact hpair .objectParameter rfl

/-! ## What a claim needs -/

section Shapes

variable {b : Bracketed} {v : View} {span : Option Span}

theorem symbol_of_staticOperator? {symbol : Bracket} {s : Span}
    (h : staticOperator? b symbol = some s) :
    ∃ signature, b.operatorSignature? = some signature ∧ signature.symbol = symbol := by
  unfold staticOperator? at h
  obtain ⟨signature, hsignature, hrest⟩ := Option.bind_eq_some_iff.1 h
  by_cases hsymbol : signature.symbol = symbol
  · exact ⟨signature, hsignature, hsymbol⟩
  · simp [hsymbol] at hrest

theorem symbol_of_examineStaticSubscript (h : examineStaticSubscript v = .found span) :
    ∃ signature, v.bracketed.operatorSignature? = some signature ∧ signature.symbol = .square := by
  unfold examineStaticSubscript at h
  split at h
  next s hs => exact symbol_of_staticOperator? hs
  next => cases h

theorem symbol_of_examineStaticCall (hkind : v.kind ≠ .captureList)
    (h : examineStaticCall v = .found span) :
    ∃ signature, v.bracketed.operatorSignature? = some signature ∧ signature.symbol = .round := by
  unfold examineStaticCall at h
  rw [if_neg (by simpa using hkind)] at h
  dsimp only at h
  split at h
  next s hs => exact symbol_of_staticOperator? hs
  next => cases h

theorem indexParameters_of_examineManyIndices (h : examineManyIndices v = .found span) :
    ∃ signature, subscript? v = some signature ∧ indexParameters signature.params ≠ [] := by
  unfold examineManyIndices at h
  split at h
  next => cases h
  next signature hsignature =>
    refine ⟨signature, hsignature, fun hnil => ?_⟩
    simp only [hnil, List.any_nil, List.length_nil, Bool.false_eq_true, if_false] at h
    split at h
    · cases h
    · rw [if_neg (by omega)] at h
      cases h

theorem indexParameters_of_examineNoIndex (h : examineNoIndex v = .found span) :
    ∃ signature, subscript? v = some signature ∧ indexParameters signature.params = [] := by
  unfold examineNoIndex at h
  split at h
  next signature hsignature =>
    split at h
    next hempty => exact ⟨signature, hsignature, List.isEmpty_iff.1 hempty⟩
    next => cases h
  next => cases h

theorem deduced_of_examineObjectParameter {deduced : Bool}
    (h : examineObjectParameter deduced v = .found span) :
    ∃ p names, objectParameterOf? v = some (p, names) ∧ p.deduced names = deduced := by
  unfold examineObjectParameter at h
  split at h
  next p names hp =>
    split at h
    next hdeduced => exact ⟨p, names, hp, by simpa using hdeduced⟩
    next => cases h
  next => cases h

end Shapes

theorem Rivals.not_both {m m' : Matcher} (h : Rivals m m') {f : Fragment} (hm : m.Claims f) :
    ¬ m'.Claims f := by
  rintro ⟨hshown, span', hfound'⟩
  obtain ⟨-, span, hfound⟩ := hm
  cases h with
  | static =>
      -- a lambda is not shown to the matcher of subscript operators
      have hkind : f.view.kind ≠ .captureList := by
        intro hkind
        rw [show f.kind = .captureList from hkind] at hshown
        exact absurd hshown (by decide)
      obtain ⟨signature, hsignature, hround⟩ := symbol_of_examineStaticCall hkind hfound
      obtain ⟨signature', hsignature', hsquare⟩ := symbol_of_examineStaticSubscript hfound'
      obtain rfl := Option.some.inj (hsignature.symm.trans hsignature')
      exact absurd (hround.symm.trans hsquare) (by decide)
  | arity =>
      obtain ⟨signature, hsignature, hsome⟩ := indexParameters_of_examineManyIndices hfound
      obtain ⟨signature', hsignature', hnone⟩ := indexParameters_of_examineNoIndex hfound'
      obtain rfl := Option.some.inj (hsignature.symm.trans hsignature')
      exact hsome hnone
  | objectParameter =>
      obtain ⟨p, names, hp, hdeduced⟩ := deduced_of_examineObjectParameter hfound
      obtain ⟨p', names', hp', hfixed⟩ := deduced_of_examineObjectParameter hfound'
      obtain ⟨rfl, rfl⟩ := Prod.mk.inj (Option.some.inj (hp.symm.trans hp'))
      exact absurd (hdeduced.symm.trans hfixed) (by decide)

/-- Of the standard matchers that share a slot at most one claims a fragment. -/
theorem eq_of_claims {m m' : Matcher} (hm : m ∈ standardMatchers) (hm' : m' ∈ standardMatchers)
    {slot : String} (h : standardCatalog.slot? m.id = some slot)
    (h' : standardCatalog.slot? m'.id = some slot) {f : Fragment} (hclaims : m.Claims f)
    (hclaims' : m'.Claims f) : m = m' := by
  obtain heq | hrivals | hrivals := rivals_of_slot? hm hm' h h'
  · exact heq
  · exact absurd hclaims' (hrivals.not_both hclaims)
  · exact absurd hclaims (hrivals.not_both hclaims')

namespace Dispatcher

/-! ## What a dispatcher keeps -/

def claims (d : Dispatcher) (f : Fragment) : List Match :=
  ((d.matchersFor f.kind).map (·.outcome f)).filterMap match?

def doubts (d : Dispatcher) (f : Fragment) : List Note :=
  ((d.matchersFor f.kind).map (·.outcome f)).filterMap note?

def SlotsApart (c : Catalog) (ms : List Match) : Prop :=
  ms.Pairwise fun a b => ∀ slot, slotOf? c a = some slot → slotOf? c b ≠ some slot

theorem SlotsApart.contested {c : Catalog} {ms : List Match} (h : SlotsApart c ms) :
    contested c ms = [] := by
  refine List.filter_eq_nil_iff.2 fun slot _ hrivals => ?_
  have hapart : (rivals c ms slot).Pairwise fun a b =>
      ∀ slot, slotOf? c a = some slot → slotOf? c b ≠ some slot := h.filter _
  have hmem : ∀ m ∈ rivals c ms slot, slotOf? c m = some slot := by
    intro m hm
    exact beq_iff_eq.1 (List.mem_filter.1 hm).2
  cases hr : rivals c ms slot with
  | nil => simp [hr] at hrivals
  | cons a rest =>
      cases rest with
      | nil => simp [hr] at hrivals
      | cons b rest =>
          rw [hr] at hapart hmem
          have hab := (List.pairwise_cons.1 hapart).1 b List.mem_cons_self slot
          exact hab (hmem a List.mem_cons_self) (hmem b (List.mem_cons_of_mem _ List.mem_cons_self))

theorem SlotsApart.enforceSlots {c : Catalog} {ms : List Match} (h : SlotsApart c ms)
    (f : Fragment) : enforceSlots c f ms = ⟨ms, []⟩ := by
  unfold Dispatcher.enforceSlots
  rw [h.contested]
  simp

theorem claims_of_match? {m : Matcher} {f : Fragment} (hshown : m.kinds.contains f.kind = true)
    {r : Match} (h : match? (m.outcome f) = some r) : m.Claims f := by
  obtain ⟨span, hspan, -⟩ := of_match? h
  exact ⟨hshown, span, hspan⟩

theorem nodup_matchers_standard (disabled : List String) :
    ((standard disabled).matchers).Pairwise fun m m' => m.id ≠ m'.id := by
  have hall : (standardExaminers.map (·.id)).Nodup := by decide +kernel
  have hselected := (List.pairwise_map.1 hall).filter fun m => !disabled.contains m.id
  exact hselected.perm (List.mergeSort_perm _ _).symm fun h => h.symm

theorem slotsApart_claims (disabled : List String) (f : Fragment) :
    SlotsApart standardCatalog ((standard disabled).claims f) := by
  unfold SlotsApart claims
  rw [List.filterMap_map]
  refine List.Pairwise.filterMap _ (R := fun e e' => e.id ≠ e'.id ∧
    (∃ m ∈ standardMatchers, m.examiner = e ∧ m.kinds.contains f.kind = true) ∧
    ∃ m ∈ standardMatchers, m.examiner = e' ∧ m.kinds.contains f.kind = true) ?_ ?_
  · rintro _ _ ⟨hne, ⟨m, hm, rfl, hshown⟩, m', hm', rfl, hshown'⟩ r hr r' hr' slot hslot hslot'
    have hslot : standardCatalog.slot? m.id = some slot := by
      rw [show m.id = r.feature from (feature_of_match? hr).symm]
      exact hslot
    have hslot' : standardCatalog.slot? m'.id = some slot := by
      rw [show m'.id = r'.feature from (feature_of_match? hr').symm]
      exact hslot'
    have heq := eq_of_claims hm hm' hslot hslot' (claims_of_match? hshown hr)
      (claims_of_match? hshown' hr')
    exact hne (heq ▸ rfl)
  · have hnodup := (nodup_matchers_standard disabled).filter
      fun m => (kindsOf standardCatalog m).contains f.kind
    refine List.Pairwise.imp_of_mem (fun hm hm' hne => ?_) hnodup
    exact ⟨hne, kinds_contains_of_mem_matchersFor hm, kinds_contains_of_mem_matchersFor hm'⟩

/-- The standard dispatcher keeps all that its matchers find in a fragment, and adds no note of
its own. -/
theorem examine_standard (disabled : List String) (f : Fragment) :
    (standard disabled).examine f
      = ⟨(standard disabled).claims f, (standard disabled).doubts f⟩ := by
  have hkept := (slotsApart_claims disabled f).enforceSlots f
  show MatchSet.mk (enforceSlots standardCatalog f ((standard disabled).claims f)).found
    ((standard disabled).doubts f ++
      (enforceSlots standardCatalog f ((standard disabled).claims f)).notes) = _
  rw [hkept, List.append_nil]

theorem eq_of_mem_standardMatchers {m m' : Matcher} (hm : m ∈ standardMatchers)
    (hm' : m' ∈ standardMatchers) (h : m.id = m'.id) : m = m' := by
  have hids : (standardMatchers.map (·.id)).Nodup := by decide +kernel
  exact List.inj_on_of_nodup_map hids hm hm' h

/-- The findings of an enabled matcher in a text are what it finds in the fragments it is shown. -/
theorem mem_findings_iff {m : Matcher} (hm : m ∈ standardMatchers) {disabled : List String}
    (henabled : m.id ∉ disabled) {name text : String} {floor : Int} {a : Match} :
    a ∈ (standardReport name text floor disabled).classification.findings ∧ a.feature = m.id ↔
      ∃ f ∈ (scan name text).fragments, m.kinds.contains f.kind = true ∧
        match? (m.outcome f) = some a := by
  have hfindings : a ∈ (standardReport name text floor disabled).classification.findings ↔
      a ∈ ((standard disabled).run (scan name text).fragments).found := List.mem_mergeSort
  rw [hfindings, mem_found_run]
  constructor
  · rintro ⟨⟨f, hf, ha⟩, hfeature⟩
    rw [examine_standard] at ha
    obtain ⟨o, ho, ha⟩ := List.mem_filterMap.1 ha
    obtain ⟨e, he, rfl⟩ := List.mem_map.1 ho
    obtain ⟨m', hstandard, rfl, hkind⟩ := kinds_contains_of_mem_matchersFor he
    have hid : m'.id = m.id := (feature_of_match? ha).symm.trans hfeature
    obtain rfl := eq_of_mem_standardMatchers hstandard hm hid
    exact ⟨f, hf, hkind, ha⟩
  · rintro ⟨f, hf, hkind, ha⟩
    refine ⟨⟨f, hf, ?_⟩, feature_of_match? (e := m) ha⟩
    rw [examine_standard]
    have hshown := mem_matchersFor_standard hm henabled hkind
    exact List.mem_filterMap.2 ⟨_, List.mem_map_of_mem hshown, ha⟩

/-- What an enabled matcher leaves open in a fragment that it is shown is a note on the text. -/
theorem mem_notes_of_note? {m : Matcher} (hm : m ∈ standardMatchers) {disabled : List String}
    (henabled : m.id ∉ disabled) {name text : String} {floor : Int} {f : Fragment}
    (hf : f ∈ (scan name text).fragments) (hkind : m.kinds.contains f.kind = true) {n : Note}
    (hn : note? (m.outcome f) = some n) : n ∈ (standardReport name text floor disabled).notes := by
  refine List.mem_mergeSort.2 (mem_notes_run.2 ⟨f, hf, ?_⟩)
  rw [examine_standard]
  have hshown := mem_matchersFor_standard hm henabled hkind
  exact List.mem_filterMap.2 ⟨_, List.mem_map_of_mem hshown, hn⟩

/-- Whether an enabled matcher has a finding in a text can be read off the fragments. -/
theorem exists_finding_iff {m : Matcher} (hm : m ∈ standardMatchers) {disabled : List String}
    (henabled : m.id ∉ disabled) {name text : String} {floor : Int} :
    (∃ a ∈ (standardReport name text floor disabled).classification.findings, a.feature = m.id) ↔
      ((scan name text).fragments.any fun f =>
        m.kinds.contains f.kind && (match? (m.outcome f)).isSome) = true := by
  simp only [mem_findings_iff hm henabled, List.any_eq_true, Bool.and_eq_true,
    Option.isSome_iff_exists]
  constructor
  · rintro ⟨a, f, hf, hkind, ha⟩
    exact ⟨f, hf, hkind, a, ha⟩
  · rintro ⟨f, hf, hkind, a, ha⟩
    exact ⟨a, f, hf, hkind, ha⟩

end Dispatcher

end CxxFloor
