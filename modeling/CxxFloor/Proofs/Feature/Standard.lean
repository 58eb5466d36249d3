/-
# Classifying with a catalog

A dispatcher is made only of matchers whose features are in its catalog
(`of_register`).  So whatever it finds is in the catalog, and a text gets a report
once there is a dispatcher (`classifyText_of_make`).

Every standard matcher has a feature of the standard catalog, and no two have
the same.  So with the standard catalog a dispatcher is made whenever the
disabled ids are known (`make_standard`), and a classification never fails
(`classifyText_standard`).
-/
import CxxFloor.Proofs.Run.Polling

namespace CxxFloor

theorem exists_of_bind_eq_ok {ε α β : Type} {x : Except ε α} {f : α → Except ε β} {b : β}
    (h : (x >>= f) = .ok b) : ∃ a, x = .ok a ∧ f a = .ok b := by
  cases x with
  | error e => cases h
  | ok a => exact ⟨a, rfl, h⟩

namespace Catalog

variable {c : Catalog} {id : String}

theorem lookup_of_contains (h : c.contains id = true) : ∃ d, c.lookup id = .ok d ∧ d.id = id := by
  unfold contains at h
  obtain ⟨d, hd⟩ := Option.isSome_iff_exists.1 h
  refine ⟨d, ?_, ?_⟩
  · unfold lookup
    rw [hd]
  · have := List.find?_some hd
    simpa using this

theorem contains_of_lookup {d : Descriptor} (h : c.lookup id = .ok d) : c.contains id = true := by
  unfold lookup at h
  unfold contains
  split at h
  next hd => rw [hd]; rfl
  next => cases h

theorem lookup_of_not_contains (h : c.contains id = false) :
    c.lookup id = .error (.unknownFeature id) := by
  unfold lookup
  have hnone : c.find? id = none := Option.isNone_iff_eq_none.1 (Option.isSome_eq_false_iff.1 h)
  rw [hnone]

/-- The lookups of a list end at the first id that is not in the catalog. -/
theorem forM_lookup_eq {α : Type} (f : α → String) (l : List α) :
    (l.forM fun a => discard (c.lookup (f a)) : Except Refusal PUnit) =
      match l.find? fun a => !c.contains (f a) with
      | none => .ok ⟨⟩
      | some a => .error (.unknownFeature (f a)) := by
  induction l with
  | nil => rfl
  | cons a l ih =>
      show (discard (c.lookup (f a)) >>= fun _ => l.forM _) = _
      cases ha : c.contains (f a) with
      | true =>
          obtain ⟨d, hd, -⟩ := lookup_of_contains ha
          rw [hd, List.find?_cons_of_neg (by simp [ha])]
          exact ih
      | false =>
          rw [lookup_of_not_contains ha, List.find?_cons_of_pos (by simp [ha])]
          rfl

theorem forM_lookup {α : Type} {f : α → String} {l : List α}
    (h : ∀ a ∈ l, c.contains (f a) = true) :
    (l.forM fun a => discard (c.lookup (f a)) : Except Refusal PUnit) = .ok ⟨⟩ := by
  have hnone : l.find? (fun a => !c.contains (f a)) = none := by
    rw [List.find?_eq_none]
    intro a ha
    simp [h a ha]
  rw [forM_lookup_eq, hnone]

theorem orStandard_of_ne_nil (h : c.entries ≠ []) : c.orStandard = c :=
  if_neg fun hempty => h (List.isEmpty_iff.1 hempty)

theorem orStandard_of_contains (h : c.contains id = true) : c.orStandard = c := by
  refine orStandard_of_ne_nil fun hnil => ?_
  rw [contains, find?, hnil] at h
  cases h

@[simp] theorem orStandard_standardCatalog : standardCatalog.orStandard = standardCatalog :=
  ite_self _

theorem forM_lookup_refused {ids : List String} (h : ¬ ∀ id ∈ ids, c.contains id = true) :
    ∃ id ∈ ids, (ids.forM fun id => discard (c.lookup id) : Except Refusal PUnit)
      = .error (.unknownFeature id) := by
  cases hfirst : ids.find? fun id => !c.contains id with
  | none => exact absurd (by simpa using hfirst) h
  | some id =>
      refine ⟨id, List.mem_of_find?_eq_some hfirst, ?_⟩
      rw [forM_lookup_eq, hfirst]

end Catalog

/-! ## The dispatcher -/

/-- The standard matchers as a dispatcher holds them. -/
def standardExaminers : List Examiner := standardMatchers.map (·.examiner)

namespace Dispatcher

theorem select_eq {c : Catalog} {disabled : List String} {ms : List Examiner}
    (hknown : ∀ m ∈ ms, c.contains m.id = true) (hnodup : (ms.map (·.id)).Nodup) :
    ∀ {seen : List String}, (∀ m ∈ ms, m.id ∉ seen) →
      select c disabled seen ms = .ok (ms.filter fun m => !disabled.contains m.id) := by
  induction ms with
  | nil =>
      intro seen _
      rfl
  | cons m ms ih =>
      intro seen hseen
      obtain ⟨d, hd, hid⟩ := Catalog.lookup_of_contains (hknown m List.mem_cons_self)
      obtain ⟨hfresh, hnodup⟩ := List.nodup_cons.1 hnodup
      have hm : seen.contains d.id = false := by
        have := hseen m List.mem_cons_self
        simpa [hid] using this
      have hseen' : ∀ k ∈ ms, k.id ∉ d.id :: seen := by
        intro k hk hmem
        rcases List.mem_cons.1 hmem with heq | hmem
        · exact hfresh (List.mem_map.2 ⟨k, hk, heq.trans hid⟩)
        · exact hseen k (List.mem_cons_of_mem _ hk) hmem
      have hrest := ih (fun k hk => hknown k (List.mem_cons_of_mem _ hk)) hnodup hseen'
      rw [hid] at hm hrest
      simp only [select, hd, hid, hm, hrest, bind, Except.bind, pure, Except.pure,
        List.filter_cons, Bool.false_eq_true, if_false]
      cases disabled.contains m.id <;> rfl

theorem of_select {c : Catalog} {disabled : List String} {ms : List Examiner} :
    ∀ {seen : List String} {selected : List Examiner}, select c disabled seen ms = .ok selected →
      ∀ m ∈ selected, m ∈ ms ∧ c.contains m.id = true := by
  induction ms with
  | nil =>
      rintro seen selected h m hm
      obtain rfl : [] = selected := Except.ok.inj h
      exact absurd hm List.not_mem_nil
  | cons k ms ih =>
      intro seen selected h m hm
      obtain ⟨d, hd, h⟩ := exists_of_bind_eq_ok h
      have h : (select c disabled (d.id :: seen) ms >>= fun rest =>
          pure (if disabled.contains d.id then rest else k :: rest)) = .ok selected := by
        dsimp only at h
        split at h
        · cases h
        · exact h
      obtain ⟨rest, hrest, h⟩ := exists_of_bind_eq_ok h
      have hbehind : ∀ m ∈ rest, m ∈ k :: ms ∧ c.contains m.id = true := fun m hm =>
        ⟨List.mem_cons_of_mem _ (ih hrest m hm).1, (ih hrest m hm).2⟩
      obtain rfl : (if disabled.contains d.id then rest else k :: rest) = selected :=
        Except.ok.inj h
      split at hm
      · exact hbehind m hm
      · rcases List.mem_cons.1 hm with rfl | hm
        · exact ⟨List.mem_cons_self, Catalog.contains_of_lookup hd⟩
        · exact hbehind m hm

theorem of_register {c : Catalog} {ms : List Examiner} {disabled : List String} {d : Dispatcher}
    (h : register c ms disabled = .ok d) :
    d.catalog = c ∧ ∀ m ∈ d.matchers, m ∈ ms ∧ c.contains m.id = true := by
  obtain ⟨-, -, h⟩ := exists_of_bind_eq_ok h
  obtain ⟨selected, hselected, h⟩ := exists_of_bind_eq_ok h
  obtain rfl := Except.ok.inj h
  exact ⟨rfl, fun m hm => of_select hselected m (List.mem_mergeSort.1 hm)⟩

/-- The dispatcher of the standard matchers that are not disabled. -/
def standard (disabled : List String) : Dispatcher :=
  ⟨standardCatalog,
    (standardExaminers.filter fun m => !disabled.contains m.id).mergeSort
      fun a b => positionOf standardCatalog a ≤ positionOf standardCatalog b⟩

theorem of_make {c : Catalog} {disabled : List String} {d : Dispatcher}
    (h : make c standardMatchers disabled = .ok d) : ∀ e ∈ d.matchers, e ∈ standardExaminers :=
  fun e he => ((of_register h).2 e he).1

theorem exists_matcher {e : Examiner} (h : e ∈ standardExaminers) :
    ∃ m ∈ standardMatchers, m.examiner = e := List.mem_map.1 h

theorem contains_standardMatchers {m : Matcher} (hm : m ∈ standardMatchers) :
    standardCatalog.contains m.id = true := by
  have h : ∀ id ∈ standardMatchers.map (·.id), standardCatalog.contains id = true := by
    decide +kernel
  exact h _ (List.mem_map_of_mem hm)

theorem make_standard {disabled : List String}
    (h : ∀ id ∈ disabled, standardCatalog.contains id = true) :
    make standardCatalog standardMatchers disabled = .ok (standard disabled) := by
  have hdisabled := Catalog.forM_lookup (c := standardCatalog) (f := id) h
  have hselect : select standardCatalog disabled [] standardExaminers
      = .ok (standardExaminers.filter fun m => !disabled.contains m.id) := by
    refine select_eq (fun e he => ?_) (by decide +kernel) (by simp)
    obtain ⟨m, hm, rfl⟩ := exists_matcher he
    exact contains_standardMatchers hm
  show register standardCatalog standardExaminers disabled = _
  unfold register
  simp only [id] at hdisabled
  rw [hdisabled, hselect]
  rfl

theorem mem_standardExaminers {disabled : List String} {e : Examiner}
    (h : e ∈ (standard disabled).matchers) : e ∈ standardExaminers :=
  (List.mem_filter.1 (List.mem_mergeSort.1 h)).1

theorem kindsOf_standard {m : Matcher} (hm : m ∈ standardMatchers) :
    kindsOf standardCatalog m = m.kinds := by
  have hkinds : ∀ kinds ∈ standardMatchers.map (·.kinds), kinds.isEmpty = false := by decide
  show (if m.kinds.isEmpty then _ else m.kinds) = m.kinds
  rw [hkinds _ (List.mem_map_of_mem hm)]
  rfl

theorem kinds_contains_of_mem_matchersFor {disabled : List String} {kind : FragmentKind}
    {e : Examiner} (h : e ∈ (standard disabled).matchersFor kind) :
    ∃ m ∈ standardMatchers, m.examiner = e ∧ m.kinds.contains kind = true := by
  obtain ⟨he, hkind⟩ := List.mem_filter.1 h
  obtain ⟨m, hm, rfl⟩ := exists_matcher (mem_standardExaminers he)
  refine ⟨m, hm, rfl, ?_⟩
  rw [← kindsOf_standard hm]
  exact hkind

theorem mem_matchersFor_standard {m : Matcher} (hm : m ∈ standardMatchers) {disabled : List String}
    (henabled : m.id ∉ disabled) {kind : FragmentKind} (hkind : m.kinds.contains kind = true) :
    m.examiner ∈ (standard disabled).matchersFor kind := by
  refine List.mem_filter.2
    ⟨List.mem_mergeSort.2 (List.mem_filter.2 ⟨List.mem_map_of_mem hm, ?_⟩), ?_⟩
  · simpa [Matcher.examiner] using henabled
  · rw [← kindsOf_standard hm] at hkind
    exact hkind

/-! ## What is found -/

section Found

variable {m : Matcher} {e : Examiner} {f : Fragment} {d : Dispatcher} {fs : List Fragment}
  {r : Match} {n : Note}

theorem match?_eq_some {o : Outcome} : match? o = some r ↔ o = .found r := by
  cases o <;> simp [match?]

theorem note?_eq_some {o : Outcome} : note? o = some n ↔ o = .ambiguous n := by
  cases o <;> simp [note?]

theorem of_match? (h : match? (m.outcome f) = some r) : ∃ span, m.examine f.view = .found span ∧
    r = { f.spot span with feature := m.id, file := f.file } := by
  unfold Matcher.outcome Fragment.outcome at h
  cases hv : m.examine f.view with
  | absent => simp [hv, match?] at h
  | found span =>
      simp only [hv, match?, Option.some.injEq] at h
      exact ⟨span, rfl, h.symm⟩
  | ambiguous => simp [hv, match?] at h

theorem of_note? (h : note? (m.outcome f) = some n) : ∃ span reason candidates,
    m.examine f.view = .ambiguous span reason candidates ∧
      n = { f.spot span with feature := m.id, reason := reason, candidates := candidates } := by
  unfold Matcher.outcome Fragment.outcome at h
  cases hv : m.examine f.view with
  | absent => simp [hv, note?] at h
  | found span => simp [hv, note?] at h
  | ambiguous span reason candidates =>
      simp only [hv, note?, Option.some.injEq] at h
      exact ⟨span, reason, candidates, rfl, h.symm⟩

theorem feature_of_match? (h : match? (e.outcome f) = some r) : r.feature = e.id := by
  refine e.own f _ ?_
  rw [match?_eq_some.1 h]
  rfl

theorem feature_of_note? (h : note? (e.outcome f) = some n) : n.feature = e.id := by
  refine e.own f _ ?_
  rw [note?_eq_some.1 h]
  rfl

theorem file_of_match? (h : match? (m.outcome f) = some r) : r.file = f.file := by
  obtain ⟨span, -, rfl⟩ := of_match? h
  rfl

theorem mem_found_run : r ∈ (d.run fs).found ↔ ∃ f ∈ fs, r ∈ (d.examine f).found := by
  show r ∈ (fs.map d.examine).flatMap (·.found) ↔ _
  rw [List.flatMap_map]
  exact List.mem_flatMap

theorem mem_notes_run : n ∈ (d.run fs).notes ↔ ∃ f ∈ fs, n ∈ (d.examine f).notes := by
  show n ∈ (fs.map d.examine).flatMap (·.notes) ↔ _
  rw [List.flatMap_map]
  exact List.mem_flatMap

theorem exists_examiner_of_mem_found (h : r ∈ (d.examine f).found) :
    ∃ e ∈ d.matchers, match? (e.outcome f) = some r := by
  obtain ⟨o, ho, hr⟩ := List.mem_filterMap.1 (List.mem_filter.1 h).1
  obtain ⟨e, he, rfl⟩ := List.mem_map.1 ho
  exact ⟨e, (List.mem_filter.1 he).1, hr⟩

theorem of_mem_run (h : r ∈ (d.run fs).found) : ∃ e ∈ d.matchers, r.feature = e.id := by
  obtain ⟨f, -, hr⟩ := mem_found_run.1 h
  obtain ⟨e, he, hr⟩ := exists_examiner_of_mem_found hr
  exact ⟨e, he, feature_of_match? hr⟩

/-- The standard matchers name the file of the fragment. -/
theorem file_of_mem_run (hd : ∀ e ∈ d.matchers, e ∈ standardExaminers)
    (h : r ∈ (d.run fs).found) : ∃ f ∈ fs, r.file = f.file := by
  obtain ⟨f, hf, hr⟩ := mem_found_run.1 h
  obtain ⟨e, he, hr⟩ := exists_examiner_of_mem_found hr
  obtain ⟨m, -, rfl⟩ := exists_matcher (hd e he)
  exact ⟨f, hf, file_of_match? hr⟩

theorem contains_of_mem_found {c : Catalog} {ms : List Examiner} {disabled : List String}
    (hmake : register c ms disabled = .ok d) (h : r ∈ (d.run fs).found) :
    c.contains r.feature = true := by
  obtain ⟨e, he, hfeature⟩ := of_mem_run h
  rw [hfeature]
  exact ((of_register hmake).2 e he).2

theorem contains_of_mem_run {disabled : List String} (h : r ∈ ((standard disabled).run fs).found) :
    standardCatalog.contains r.feature = true := by
  obtain ⟨e, he, hfeature⟩ := of_mem_run h
  obtain ⟨m, hm, rfl⟩ := exists_matcher (mem_standardExaminers he)
  rw [hfeature]
  exact contains_standardMatchers hm

end Found

end Dispatcher

/-! ## The report -/

/-- The classification of matches whose features are all in the catalog. -/
def Classification.of (matched : List Match) (c : Catalog) (floor : Int) : Classification :=
  let findings := matched.mergeSort c.findingLe
  let ids := findings.map (·.feature)
  ⟨(c.newest? ids).getD floor, findings, c.tally ids⟩

theorem classify_of_contains {matched : List Match} {c : Catalog} {floor : Int}
    (h : ∀ m ∈ matched, c.contains m.feature = true) :
    classify matched c floor = .ok (.of matched c floor) := by
  have hlookup := Catalog.forM_lookup h
  unfold classify
  rw [hlookup]
  rfl

/-- The report of a dispatcher on a text. -/
def Dispatcher.reportOn (d : Dispatcher) (name text : String) (floor : Int) : FileReport :=
  let scan := scan name text
  let matched := d.run scan.fragments
  ⟨name, .of matched.found d.catalog floor, matched.notes.mergeSort d.catalog.noteLe,
    scan.diagnostics⟩

/-- What the dispatcher found in a text is reported. -/
theorem reportOf_run {c : Catalog} {ms : List Examiner} {disabled : List String} {d : Dispatcher}
    (hmake : Dispatcher.register c ms disabled = .ok d) (name text : String) (floor : Int) :
    Run.reportOf ⟨text, name, floor, d⟩ (scan name text).diagnostics
      (d.run (scan name text).fragments) = .ok (d.reportOn name text floor) := by
  have hclassify : classify (d.run (scan name text).fragments).found d.catalog floor
      = .ok (.of (d.run (scan name text).fragments).found d.catalog floor) := by
    refine classify_of_contains fun m hm => ?_
    rw [(Dispatcher.of_register hmake).1]
    exact Dispatcher.contains_of_mem_found hmake hm
  show (classify _ d.catalog floor >>= fun c => pure (FileReport.mk _ c _ _)) = _
  rw [hclassify]
  rfl

/-- A dispatcher of the standard matchers is made only with a catalog that is used as it is. -/
theorem Catalog.orStandard_of_make {c : Catalog} {disabled : List String} {d : Dispatcher}
    (hmake : Dispatcher.make c standardMatchers disabled = .ok d) : c.orStandard = c := by
  obtain ⟨-, -, h⟩ := exists_of_bind_eq_ok hmake
  obtain ⟨_, hselect, -⟩ := exists_of_bind_eq_ok h
  -- the first of the matchers is looked up, enabled or not
  obtain ⟨_, hlookup, -⟩ := exists_of_bind_eq_ok hselect
  exact Catalog.orStandard_of_contains (Catalog.contains_of_lookup hlookup)

/-- Once a dispatcher is made of the standard matchers, every text gets its report. -/
theorem classifyText_of_make {c : Catalog} {disabled : List String} {d : Dispatcher}
    (hmake : Dispatcher.make c standardMatchers disabled = .ok d) (name text : String)
    (floor : Int) :
    classifyText name text c floor disabled = .ok (d.reportOn name text floor) := by
  have hreport := reportOf_run hmake name text floor
  unfold classifyText
  rw [Catalog.orStandard_of_make hmake, hmake]
  show (Run.execute _).1 = _
  unfold Run.execute Run.scan Run.matchFragments Run.report
  simp only [Run.collect_eq, Run.examineAll_eq, Signal.pass?_never, Option.map_some, hreport]

/-- The report on a text is that of a dispatcher of standard matchers. -/
theorem exists_dispatcher_of_classifyText {c : Catalog} {disabled : List String}
    {name text : String} {floor : Int} {report : FileReport}
    (h : classifyText name text c floor disabled = .ok report) :
    ∃ d, Dispatcher.make c.orStandard standardMatchers disabled = .ok d ∧
      report = d.reportOn name text floor := by
  obtain ⟨d, hmake, h⟩ := exists_of_bind_eq_ok h
  have hreport := classifyText_of_make hmake name text floor
  unfold classifyText at hreport
  rw [Catalog.orStandard_of_make hmake, hmake] at hreport
  exact ⟨d, hmake, Except.ok.inj (h.symm.trans hreport)⟩

/-- The report on a text with the standard catalog. -/
def standardReport (name text : String) (floor : Int) (disabled : List String) : FileReport :=
  let scan := scan name text
  let matched := (Dispatcher.standard disabled).run scan.fragments
  ⟨name, .of matched.found standardCatalog floor, matched.notes.mergeSort standardCatalog.noteLe,
    scan.diagnostics⟩

/-- With the standard catalog and known disabled ids, every text gets a report. -/
theorem classifyText_standard {disabled : List String}
    (h : ∀ id ∈ disabled, standardCatalog.contains id = true) (name text : String) (floor : Int) :
    classifyText name text standardCatalog floor disabled
      = .ok (standardReport name text floor disabled) :=
  classifyText_of_make (Dispatcher.make_standard h) name text floor

/-- An id that is not in the catalog cannot be disabled, whatever the text. -/
theorem classifyText_refused {disabled : List String}
    (h : ¬ ∀ id ∈ disabled, standardCatalog.contains id = true) :
    ∃ id ∈ disabled, ∀ name text floor, classifyText name text standardCatalog floor disabled
      = .error (.unknownFeature id) := by
  obtain ⟨id, hid, herror⟩ := Catalog.forM_lookup_refused h
  refine ⟨id, hid, fun name text floor => ?_⟩
  unfold classifyText Dispatcher.make Dispatcher.register
  rw [Catalog.orStandard_standardCatalog, herror]
  rfl

end CxxFloor
