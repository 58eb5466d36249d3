/-
# The verdict on a batch

The exit code of a batch is the greatest of those of its entries
(`Batch.max?_exitCode`), and an entry has the exit code of the batch that it
would be alone.  So everything about a verdict is read off the entries one by
one: the order does not matter, and a higher floor makes no entry worse
(`Entry.exitCode_le_of_floor_le`).  The floor comes in twice, as the threshold
and as what a file without findings requires; the second never exceeds the
first.

All this holds whatever the codecs.  There is no verdict at all if reading one
of the inputs raises an error: a path that no file can have does
(`null_in_path_leaves_no_verdict`), and so does a codec that fails.
-/
import CxxFloor.Program
import CxxFloor.Proofs.Batch.Entries

namespace CxxFloor

/-- The number is the greatest of these, or the given one where there are none. -/
def IsGreatestOr (default : Int) (ns : List Int) (n : Int) : Prop :=
  (ns = [] → n = default) ∧ (ns ≠ [] → n ∈ ns ∧ ∀ m ∈ ns, m ≤ n)

namespace IsGreatestOr

variable {default n n' : Int} {ns ns' : List Int}

theorem getD_max? (default : Int) (ns : List Int) :
    IsGreatestOr default ns (ns.max?.getD default) := by
  cases h : ns.max? with
  | none =>
      obtain rfl := List.max?_eq_none_iff.1 h
      exact ⟨fun _ => rfl, fun hne => absurd rfl hne⟩
  | some n =>
      obtain ⟨hmem, hle⟩ := List.max?_eq_some_iff.1 h
      exact ⟨fun hnil => absurd hmem (hnil ▸ List.not_mem_nil), fun _ => ⟨hmem, hle⟩⟩

theorem perm (h : IsGreatestOr default ns n) (hperm : ns'.Perm ns) :
    IsGreatestOr default ns' n := by
  refine ⟨fun hnil => h.1 ?_, fun hne => ?_⟩
  · rw [hnil] at hperm
    exact hperm.nil_eq.symm
  · obtain ⟨hmem, hle⟩ := h.2 fun hnil => hne (hnil ▸ hperm).eq_nil
    exact ⟨hperm.mem_iff.2 hmem, fun m hm => hle m (hperm.mem_iff.1 hm)⟩

theorem unique (h : IsGreatestOr default ns n) (h' : IsGreatestOr default ns n') : n = n' := by
  by_cases hne : ns = []
  · rw [h.1 hne, h'.1 hne]
  · exact le_antisymm ((h'.2 hne).2 n (h.2 hne).1) ((h.2 hne).2 n' (h'.2 hne).1)

end IsGreatestOr

/-! ## Entries -/

/-- The exit code of an entry: that of a failure, of a violation, or of neither. -/
def Entry.exitCode (floor : Int) (failOnUnknown : Bool) : Entry → Nat
  | .report r => if floor < r.required ∨ failOnUnknown = true ∧ r.isDoubtful = true then 1 else 0
  | .failure _ => 2

theorem Entry.exitCode_report_le (floor : Int) (failOnUnknown : Bool) (r : FileReport) :
    (report r).exitCode floor failOnUnknown ≤ 1 := by
  show (if _ then 1 else 0) ≤ 1
  split <;> decide

theorem FileReport.isDoubtful_eq_false_iff {r : FileReport} :
    r.isDoubtful = false ↔ r.notes = [] ∧ r.diagnostics = [] := by
  simp [isDoubtful]

theorem Conclusion.exitCode_injective {a b : Conclusion} (h : a.exitCode = b.exitCode) : a = b := by
  cases a <;> cases b <;> first | rfl | cases h

namespace Batch

variable {b b' : Batch}

theorem mem_reports_iff {r : FileReport} : r ∈ b.reports ↔ Entry.report r ∈ b.entries := by
  unfold reports
  rw [List.mem_filterMap]
  constructor
  · rintro ⟨e, he, hr⟩
    cases e with
    | report r' =>
        obtain rfl := Option.some.inj hr
        exact he
    | failure f => cases hr
  · intro h
    exact ⟨_, h, rfl⟩

theorem mem_failures_iff {f : Failure} : f ∈ b.failures ↔ Entry.failure f ∈ b.entries := by
  unfold failures
  rw [List.mem_filterMap]
  constructor
  · rintro ⟨e, he, hf⟩
    cases e with
    | report r => cases hf
    | failure f' =>
        obtain rfl := Option.some.inj hf
        exact he
  · intro h
    exact ⟨_, h, rfl⟩

/-! ## The verdict -/

theorem required_isGreatestOr (b : Batch) :
    IsGreatestOr b.floor (b.reports.map (·.required)) b.required :=
  .getD_max? _ _

theorem required_le_floor_iff : b.required ≤ b.floor ↔ ∀ r ∈ b.reports, r.required ≤ b.floor := by
  obtain ⟨hnil, hgreatest⟩ := b.required_isGreatestOr
  constructor
  · intro hle r hr
    have hmem : r.required ∈ b.reports.map (·.required) := List.mem_map_of_mem hr
    have := (hgreatest (List.ne_nil_of_mem hmem)).2 _ hmem
    omega
  · intro hle
    by_cases hne : b.reports.map (·.required) = []
    · rw [hnil hne]
    · obtain ⟨r, hr, hrequired⟩ := List.mem_map.1 (hgreatest hne).1
      have := hle r hr
      omega

theorem conclusion_eq_failure_iff :
    b.conclusion = .failure ↔ b.failures ≠ [] ∨ b.entries = [] := by
  unfold conclusion
  split
  next h => simpa using h
  next h =>
    have h : b.failures = [] ∧ b.entries ≠ [] := by simpa using h
    constructor
    · intro heq
      split at heq
      · cases heq
      · split at heq <;> cases heq
    · rintro (hne | hnil)
      · exact absurd h.1 hne
      · exact absurd hnil h.2

theorem conclusion_eq_ok_iff :
    b.conclusion = .ok ↔ b.failures = [] ∧ b.entries ≠ [] ∧ b.required ≤ b.floor ∧
      (b.failOnUnknown = true → ∀ r ∈ b.reports, r.notes = [] ∧ r.diagnostics = []) := by
  have hviolates : b.reports.any b.violates = false ↔ b.required ≤ b.floor := by
    rw [required_le_floor_iff]
    simp [violates]
  have hdoubtful : b.reports.any (·.isDoubtful) = false ↔
      ∀ r ∈ b.reports, r.notes = [] ∧ r.diagnostics = [] := by
    simp [FileReport.isDoubtful]
  rw [← hviolates, ← hdoubtful]
  unfold conclusion
  cases b.failures <;> cases b.entries <;> cases b.reports.any b.violates <;>
    cases b.failOnUnknown <;> cases b.reports.any (·.isDoubtful) <;> simp

theorem exitCode_entry_le (hfailures : b.failures = []) {e : Entry} (he : e ∈ b.entries) :
    e.exitCode b.floor b.failOnUnknown ≤ 1 := by
  cases e with
  | report r => exact Entry.exitCode_report_le _ _ r
  | failure f => exact absurd (mem_failures_iff.2 he) (hfailures ▸ List.not_mem_nil)

/-- The entries of a batch that is neither failed nor violated are so themselves. -/
theorem conclusion_eq_ok_iff_exitCode (hne : b.entries ≠ []) :
    b.conclusion = .ok ↔ ∀ e ∈ b.entries, e.exitCode b.floor b.failOnUnknown = 0 := by
  rw [conclusion_eq_ok_iff, required_le_floor_iff]
  constructor
  · rintro ⟨hfailures, -, hfloor, hknown⟩ e he
    cases e with
    | failure f => exact absurd (mem_failures_iff.2 he) (hfailures ▸ List.not_mem_nil)
    | report r =>
        have hr := mem_reports_iff.2 he
        refine if_neg ?_
        rintro (hlt | ⟨hstrict, hdoubtful⟩)
        · exact absurd (hfloor r hr) (Int.not_le.2 hlt)
        · rw [FileReport.isDoubtful_eq_false_iff.2 (hknown hstrict r hr)] at hdoubtful
          cases hdoubtful
  · intro hzero
    have hreport : ∀ r ∈ b.reports, ¬ (b.floor < r.required ∨
        b.failOnUnknown = true ∧ r.isDoubtful = true) := by
      intro r hr hbad
      have := hzero _ (mem_reports_iff.1 hr)
      rw [Entry.exitCode, if_pos hbad] at this
      cases this
    refine ⟨?_, hne, fun r hr => ?_, fun hstrict r hr => ?_⟩
    · refine List.eq_nil_iff_forall_not_mem.2 fun f hf => ?_
      cases hzero _ (mem_failures_iff.1 hf)
    · exact Int.not_lt.1 fun hlt => hreport r hr (.inl hlt)
    · refine FileReport.isDoubtful_eq_false_iff.1 ?_
      exact Bool.eq_false_iff.2 fun hdoubtful => hreport r hr (.inr ⟨hstrict, hdoubtful⟩)

theorem max?_exitCode (hne : b.entries ≠ []) :
    (b.entries.map (Entry.exitCode b.floor b.failOnUnknown)).max? = some b.conclusion.exitCode := by
  rw [List.max?_eq_some_iff, List.mem_map]
  cases hconclusion : b.conclusion with
  | failure =>
      have hfailures : b.failures ≠ [] :=
        (conclusion_eq_failure_iff.1 hconclusion).resolve_right hne
      obtain ⟨f, hf⟩ := List.exists_mem_of_ne_nil _ hfailures
      refine ⟨⟨_, mem_failures_iff.1 hf, rfl⟩, fun n hn => ?_⟩
      obtain ⟨e, -, rfl⟩ := List.mem_map.1 hn
      cases e with
      | report r => exact Nat.le_succ_of_le (Entry.exitCode_report_le _ _ r)
      | failure f => exact Nat.le_refl 2
  | violation =>
      have hfailures : b.failures = [] := by
        by_contra hfailures
        rw [conclusion_eq_failure_iff.2 (.inl hfailures)] at hconclusion
        cases hconclusion
      have hbad : ¬ ∀ e ∈ b.entries, e.exitCode b.floor b.failOnUnknown = 0 := by
        rw [← conclusion_eq_ok_iff_exitCode hne, hconclusion]
        exact nofun
      obtain ⟨e, he, hcode⟩ : ∃ e ∈ b.entries, e.exitCode b.floor b.failOnUnknown ≠ 0 := by
        simpa using hbad
      have hle := exitCode_entry_le hfailures he
      refine ⟨⟨e, he, ?_⟩, fun n hn => ?_⟩
      · show e.exitCode b.floor b.failOnUnknown = 1
        omega
      · obtain ⟨e', he', rfl⟩ := List.mem_map.1 hn
        exact exitCode_entry_le hfailures he'
  | ok =>
      have hzero := (conclusion_eq_ok_iff_exitCode hne).1 hconclusion
      obtain ⟨e, he⟩ := List.exists_mem_of_ne_nil _ hne
      refine ⟨⟨e, he, hzero e he⟩, fun n hn => ?_⟩
      obtain ⟨e', he', rfl⟩ := List.mem_map.1 hn
      exact Nat.le_of_eq (hzero e' he')

theorem exitCode_singleton (e : Entry) (floor : Int) (failOnUnknown : Bool) :
    (Batch.mk [e] floor failOnUnknown).conclusion.exitCode = e.exitCode floor failOnUnknown := by
  have hmax := max?_exitCode (b := ⟨[e], floor, failOnUnknown⟩) (by simp)
  exact (Option.some.inj hmax).symm

/-! ## Another order -/

theorem of_perm {es es' : List Entry} (hperm : es'.Perm es) (floor : Int) (failOnUnknown : Bool) :
    let b : Batch := ⟨es, floor, failOnUnknown⟩
    let b' : Batch := ⟨es', floor, failOnUnknown⟩
    b'.conclusion = b.conclusion ∧ b'.required = b.required ∧ b'.findingCount = b.findingCount := by
  intro b b'
  have hreports : b'.reports.Perm b.reports := hperm.filterMap _
  refine ⟨?_, ?_, ?_⟩
  · by_cases hne : es = []
    · subst hne
      obtain rfl := hperm.eq_nil
      rfl
    · have hne' : es' ≠ [] := fun hnil => hne (hnil ▸ hperm).nil_eq.symm
      have hcodes : (es'.map (Entry.exitCode floor failOnUnknown)).Perm
          (es.map (Entry.exitCode floor failOnUnknown)) := hperm.map _
      obtain ⟨hmem, hle⟩ := List.max?_eq_some_iff.1 (max?_exitCode (b := b) hne)
      have hmax : (es'.map (Entry.exitCode floor failOnUnknown)).max?
          = some b.conclusion.exitCode :=
        List.max?_eq_some_iff.2
          ⟨hcodes.mem_iff.2 hmem, fun n hn => hle n (hcodes.mem_iff.1 hn)⟩
      refine Conclusion.exitCode_injective (Option.some.inj ?_)
      rw [← max?_exitCode (b := b') hne', ← hmax]
  · exact b'.required_isGreatestOr.unique (b.required_isGreatestOr.perm (hreports.map _))
  · exact (hreports.flatMap_right _).length_eq

end Batch

/-! ## What inputs become -/

/-- What exceeds a higher floor exceeds a lower one: the floor is required only where nothing is
found, and does not exceed itself. -/
theorem Dispatcher.lt_required_of_le (d : Dispatcher) {name text : String} {floor floor' : Int}
    (hle : floor ≤ floor') (h : floor' < (d.reportOn name text floor').required) :
    floor < (d.reportOn name text floor).required := by
  let findings := (d.run (scan name text).fragments).found.mergeSort d.catalog.findingLe
  change floor' < (d.catalog.newest? (findings.map (·.feature))).getD floor' at h
  show floor < (d.catalog.newest? (findings.map (·.feature))).getD floor
  cases hnewest : d.catalog.newest? (findings.map (·.feature)) with
  | none =>
      rw [hnewest] at h
      exact absurd h (lt_irrefl _)
  | some n =>
      rw [hnewest] at h
      exact lt_of_le_of_lt hle h

namespace Plan

variable {p : Plan} {is is' : List Input} {es es' : List Entry}

theorem zip_perm (h : List.Forall₂ (fun i e => p.become i = .ok e) is es)
    (h' : List.Forall₂ (fun i e => p.become i = .ok e) is' es') (hperm : is'.Perm is) :
    (is'.zip es').Perm (is.zip es) := by
  obtain ⟨f, hf⟩ : ∃ f : Input → Entry, ∀ i e, p.become i = .ok e → f i = e := by
    refine ⟨fun i => (p.become i).toOption.getD (.failure (.unreadable i.name "")), fun i e h => ?_⟩
    simp only [h]
    rfl
  have hmap : ∀ {is es}, List.Forall₂ (fun i e => p.become i = .ok e) is es → es = is.map f := by
    intro is es h
    have h := List.forall₂_map_left_iff.2 (h.imp hf)
    rw [List.forall₂_eq_eq_eq] at h
    exact h.symm
  rw [hmap h, hmap h', ← List.map_prod_left_eq_zip, ← List.map_prod_left_eq_zip]
  exact hperm.map _

theorem exitCode_le_of_floor_le {floor : Int} (hle : p.floor ≤ floor) (failOnUnknown : Bool)
    {i : Input} {e : Entry} (h : p.become i = .ok e) :
    ∃ e', { p with floor := floor }.become i = .ok e' ∧
      e'.exitCode floor failOnUnknown ≤ e.exitCode p.floor failOnUnknown := by
  obtain ⟨text, hread, hbecome⟩ | ⟨reason, hread, hbecome⟩ | ⟨e', -, hbecome⟩ := p.become_of_read i
  · obtain rfl := Except.ok.inj (hbecome.symm.trans h)
    refine ⟨.report (p.dispatcher.reportOn i.name text floor), ?_, ?_⟩
    · simp only [become, hread]
      rfl
    rw [Entry.exitCode, Entry.exitCode]
    split
    next hbad =>
      rw [if_pos]
      -- the notes and the diagnostics of a report do not depend on the floor
      exact hbad.imp_left (p.dispatcher.lt_required_of_le hle)
    next => exact Nat.zero_le _
  · obtain rfl := Except.ok.inj (hbecome.symm.trans h)
    exact ⟨.failure (.unreadable i.name reason), by simp only [become, hread]; rfl, Nat.le_refl 2⟩
  · rw [hbecome] at h
    cases h

/-- Under a higher floor the inputs of a batch become entries with no higher exit codes. -/
theorem exists_entries_of_floor_le {floor : Int} (hle : p.floor ≤ floor) (failOnUnknown : Bool)
    (h : List.Forall₂ (fun i e => p.become i = .ok e) is es) :
    ∃ es', is.mapM { p with floor := floor }.become = .ok es' ∧
      List.Forall₂ (fun e' e => e'.exitCode floor failOnUnknown ≤ e.exitCode p.floor failOnUnknown)
        es' es := by
  induction h with
  | nil => exact ⟨[], rfl, .nil⟩
  | cons hbecome _ ih =>
      obtain ⟨e', hbecome', hcode⟩ := exitCode_le_of_floor_le hle failOnUnknown hbecome
      obtain ⟨es', hentries, hcodes⟩ := ih
      refine ⟨e' :: es', ?_, .cons hcode hcodes⟩
      rw [List.mapM_cons, hbecome', hentries]
      rfl

end Plan

/-- Entries with no higher exit codes make a batch with no higher one. -/
theorem Batch.exitCode_le_of_forall₂ {b b' : Batch} (hne : b.entries ≠ [])
    (h : List.Forall₂ (fun e' e => e'.exitCode b'.floor b'.failOnUnknown
      ≤ e.exitCode b.floor b.failOnUnknown) b'.entries b.entries) :
    b'.conclusion.exitCode ≤ b.conclusion.exitCode := by
  have hne' : b'.entries ≠ [] := by
    intro hnil
    rw [hnil] at h
    exact hne (List.forall₂_nil_left_iff.1 h)
  obtain ⟨hmem, -⟩ := List.max?_eq_some_iff.1 (max?_exitCode hne')
  obtain ⟨-, hle⟩ := List.max?_eq_some_iff.1 (max?_exitCode hne)
  obtain ⟨e', he', hcode⟩ := List.mem_map.1 hmem
  obtain ⟨k, hk, rfl⟩ := List.getElem_of_mem he'
  have hk' : k < b.entries.length := h.length_eq ▸ hk
  calc b'.conclusion.exitCode
      = b'.entries[k].exitCode b'.floor b'.failOnUnknown := hcode.symm
    _ ≤ b.entries[k].exitCode b.floor b.failOnUnknown := (List.forall₂_iff_get.1 h).2 k hk hk'
    _ ≤ b.conclusion.exitCode := hle _ (List.mem_map_of_mem (List.getElem_mem hk'))

/-! ## Batches with the standard catalog -/

def Settings.plan (s : Settings) (codecs : Codecs) (t : FileTree) : Plan :=
  ⟨t, codecs s.encoding, s.floor, .standard s.disabled⟩

section Standard

variable {s : Settings}

theorem Settings.plan_made (hknown : ∀ id ∈ s.disabled, standardCatalog.contains id = true)
    (codecs : Codecs) (t : FileTree) : (s.plan codecs t).Made :=
  ⟨standardCatalog, standardExaminers, s.disabled, Dispatcher.make_standard hknown⟩

/-- With known ids, a batch is made of what its inputs become. -/
theorem classifyBatch_eq (hknown : ∀ id ∈ s.disabled, standardCatalog.contains id = true)
    (codecs : Codecs) (t : FileTree) (is : List Input) :
    classifyBatch codecs t s standardCatalog .never is =
      (is.mapM (s.plan codecs t).become).map fun es => ⟨es, s.floor, s.failOnUnknown⟩ := by
  unfold classifyBatch
  rw [Catalog.orStandard_standardCatalog, Dispatcher.make_standard hknown]
  show ((s.plan codecs t).entries .never is >>= fun es =>
    pure (Batch.mk es s.floor s.failOnUnknown)) = _
  rw [Plan.entries_never (s.plan_made hknown codecs t)]
  cases is.mapM (s.plan codecs t).become <;> rfl

/-- A batch of possible inputs is made, of what the inputs become. -/
theorem classifyBatch_of_possible
    (hknown : ∀ id ∈ s.disabled, standardCatalog.contains id = true) (codecs : Codecs)
    {t : FileTree} {is : List Input} (his : ∀ i ∈ is, i.Possible t (codecs s.encoding)) :
    ∃ es, List.Forall₂ (fun i e => (s.plan codecs t).become i = .ok e) is es ∧
      classifyBatch codecs t s standardCatalog .never is = .ok ⟨es, s.floor, s.failOnUnknown⟩ := by
  have hmade := s.plan_made hknown codecs t
  obtain ⟨es, -, hentries, -⟩ :=
    Plan.entries_of_possible (p := s.plan codecs t) (fun i text => hmade.job i text) his 0
  refine ⟨es, Plan.become_of_entries hmade hentries, ?_⟩
  rw [classifyBatch_eq hknown, ← Plan.entries_never hmade, hentries]
  rfl

/-- The verdict on a batch of at least one input, with the standard catalog and any codecs.

Where reading the inputs raises no error, there is a batch.  Its exit code is the greatest of those
of its inputs alone; it is ok exactly if every input can be read, no file requires more than the
floor and, where that is asked for, none has a note or a diagnostic; and it requires the greatest of
what its files require, or the floor without files.  Its inputs in another order give its entries in
that order and the same verdict, standard and number of findings, and a higher floor gives no higher
exit code.  Otherwise there is no batch: the first input that raises an error ends it with that. -/
theorem verdict_of_batch (codecs : Codecs) {s : Settings}
    (hknown : ∀ id ∈ s.disabled, standardCatalog.contains id = true) (t : FileTree)
    {is : List Input} (hne : is ≠ []) :
    let classify (s : Settings) := classifyBatch codecs t s standardCatalog .never
    ((∀ i ∈ is, i.Possible t (codecs s.encoding)) → ∃ b, classify s is = .ok b ∧
      b.entries.length = is.length ∧
      b.reports = (is.filterMap fun i => (i.text? t (codecs s.encoding)).map fun text =>
        standardReport i.name text s.floor s.disabled) ∧
      (∃ codes : List Nat, List.Forall₂ (fun i code => ∃ alone,
          classify s [i] = .ok alone ∧ alone.conclusion.exitCode = code) is codes ∧
        codes.max? = some b.conclusion.exitCode) ∧
      (b.conclusion = .ok ↔ (∀ i ∈ is, (i.text? t (codecs s.encoding)).isSome = true) ∧
        b.required ≤ s.floor ∧
        (s.failOnUnknown = true → ∀ r ∈ b.reports, r.notes = [] ∧ r.diagnostics = [])) ∧
      IsGreatestOr s.floor (b.reports.map (·.required)) b.required ∧
      (∀ is', is'.Perm is → ∃ b', classify s is' = .ok b' ∧
        b'.entries.length = is'.length ∧ (is'.zip b'.entries).Perm (is.zip b.entries) ∧
        b'.conclusion = b.conclusion ∧ b'.required = b.required ∧
        b'.findingCount = b.findingCount) ∧
      ∀ floor, s.floor ≤ floor → ∃ b', classify { s with floor := floor } is = .ok b' ∧
        b'.conclusion.exitCode ≤ b.conclusion.exitCode) ∧
    ∀ before i after e, is = before ++ i :: after →
      (∀ j ∈ before, j.Possible t (codecs s.encoding)) → i.Raises t (codecs s.encoding) e →
        classify s is = .error e := by
  intro classify
  refine ⟨fun his => ?_, ?_⟩
  · obtain ⟨es, hes, hbatch⟩ := classifyBatch_of_possible hknown codecs his
    have hreports := Plan.reports_of_become hes
    have hesne : es ≠ [] := by
      rintro rfl
      exact hne (List.forall₂_nil_right_iff.1 hes)
    refine ⟨_, hbatch, hes.length_eq.symm, hreports, ?_, ?_, Batch.required_isGreatestOr _, ?_, ?_⟩
    · refine ⟨es.map (Entry.exitCode s.floor s.failOnUnknown), ?_,
        Batch.max?_exitCode (b := ⟨es, s.floor, s.failOnUnknown⟩) hesne⟩
      refine List.forall₂_map_right_iff.2 (hes.imp fun i e hbecome => ?_)
      refine ⟨⟨[e], s.floor, s.failOnUnknown⟩, ?_, Batch.exitCode_singleton e _ _⟩
      show classifyBatch codecs t s standardCatalog .never [i] = _
      rw [classifyBatch_eq hknown, List.mapM_cons, hbecome]
      rfl
    · have hfailures : Batch.failures ⟨es, s.floor, s.failOnUnknown⟩ = [] ↔
          ∀ i ∈ is, (i.text? t (codecs s.encoding)).isSome = true := by
        rw [Batch.failures, Plan.failures_of_become hes, List.filterMap_eq_nil_iff]
        refine forall₂_congr fun i hi => ?_
        rw [Option.map_eq_none_iff]
        exact Input.reason?_eq_none_iff (his i hi)
      rw [Batch.conclusion_eq_ok_iff, hfailures]
      exact and_congr_right fun _ => and_iff_right hesne
    · intro is' hperm
      obtain ⟨es', hes', hbatch'⟩ :=
        classifyBatch_of_possible hknown codecs fun i hi => his i (hperm.mem_iff.1 hi)
      have hzip := Plan.zip_perm hes hes' hperm
      have hesperm : es'.Perm es := by
        have := hzip.map Prod.snd
        rwa [List.map_snd_zip hes'.length_eq.ge, List.map_snd_zip hes.length_eq.ge] at this
      exact ⟨_, hbatch', hes'.length_eq.symm, hzip, Batch.of_perm hesperm _ _⟩
    · intro floor hle
      obtain ⟨es', hes', hcodes⟩ :=
        Plan.exists_entries_of_floor_le (p := s.plan codecs t) hle s.failOnUnknown hes
      refine ⟨⟨es', floor, s.failOnUnknown⟩, ?_, Batch.exitCode_le_of_forall₂ hesne hcodes⟩
      show classifyBatch codecs t { s with floor := floor } standardCatalog .never is = _
      rw [classifyBatch_eq (s := { s with floor := floor }) hknown]
      exact congrArg (Except.map _) hes'
  · rintro before i after e rfl hbefore hi
    show classifyBatch codecs t s standardCatalog .never _ = _
    rw [classifyBatch_eq hknown, Plan.mapM_become_of_raises (p := s.plan codecs t) hbefore hi]
    rfl

/-- A text and a file that is missing, in both orders and under two floors: the missing file keeps
the verdict from being ok. -/
theorem verdict_of_batch_missing_file :
    let classify (s : Settings) := classifyBatch Codec.named (.fresh "work") s standardCatalog .never
    let a : Input := ⟨"a", some "auto n = 1uz;", none⟩
    let b : Input := ⟨"b", none, some "b.cpp"⟩
    (∀ id ∈ ["warning-directive"], standardCatalog.contains id = true) ∧
    (∀ i ∈ [a, b], i.Possible (.fresh "work") "utf-8") ∧
    ∃ both, classify { disabled := ["warning-directive"] } [a, b] = .ok both ∧
      both.conclusion ≠ .ok ∧
      (∃ both', classify { disabled := ["warning-directive"] } [b, a] = .ok both' ∧
        both'.conclusion = both.conclusion) ∧
      ∃ both', classify { floor := 23, disabled := ["warning-directive"] } [a, b] = .ok both' ∧
        both'.conclusion.exitCode ≤ both.conclusion.exitCode := by
  intro classify a b
  have hknown : ∀ id ∈ ["warning-directive"], standardCatalog.contains id = true := by
    decide +kernel
  have hmissing : Input.read (.fresh "work") "utf-8" b =
      .ok (.error "No such file or directory") := by
    rfl
  have hpossible : ∀ i ∈ [a, b], i.Possible (.fresh "work") "utf-8" :=
    List.forall_mem_cons.2 ⟨Input.possible_iff.2 ⟨_, rfl⟩,
      List.forall_mem_singleton.2 (Input.possible_iff.2 ⟨_, hmissing⟩)⟩
  obtain ⟨both, hbatch, -, -, -, hok, -, horder, hfloor⟩ :=
    (verdict_of_batch Codec.named (s := { disabled := ["warning-directive"] }) hknown
      (.fresh "work") (List.cons_ne_nil _ _)).1 hpossible
  refine ⟨hknown, hpossible, both, hbatch, fun hconclusion => ?_, ?_, hfloor 23 (by decide)⟩
  · have hread := (hok.1 hconclusion).1 _ (List.mem_cons_of_mem _ List.mem_cons_self)
    unfold Input.text? at hread
    rw [hmissing] at hread
    cases hread
  · obtain ⟨both', hbatch', -, -, hconclusion, -⟩ := horder _ (.swap _ _ [])
    exact ⟨both', hbatch', hconclusion⟩

/-- A path with the character with code zero leaves a batch without a verdict; another path that leads
to no file makes it a failure. -/
theorem null_in_path_leaves_no_verdict :
    classifyBatch Codec.named (.fresh "work") {} standardCatalog .never
      [⟨"a", some "int n;", none⟩, ⟨"b", none, some "a\x00b"⟩] = .error .nullInPath ∧
    ∃ b, classifyBatch Codec.named (.fresh "work") {} standardCatalog .never
        [⟨"a", some "int n;", none⟩, ⟨"b", none, some "ab"⟩] = .ok b ∧
      b.conclusion.exitCode = 2 := by
  have hnull : Input.read (.fresh "work") "utf-8" ⟨"b", none, some "a\x00b"⟩ =
      .error .nullInPath := by
    rfl
  have hmissing : Input.read (.fresh "work") "utf-8" ⟨"b", none, some "ab"⟩ =
      .ok (.error "No such file or directory") := by
    rfl
  have hrefused : (Settings.plan {} Codec.named (.fresh "work")).become
      ⟨"b", none, some "a\x00b"⟩ = .error .nullInPath :=
    Plan.become_eq_error_iff.2 (Input.read_eq_error_iff.1 hnull)
  have hfailed : (Settings.plan {} Codec.named (.fresh "work")).become ⟨"b", none, some "ab"⟩ =
      .ok (.failure (.unreadable "b" "No such file or directory")) := by
    show (Input.read (.fresh "work") "utf-8" ⟨"b", none, some "ab"⟩ >>= _) = _
    rw [hmissing]
    rfl
  constructor
  · rw [classifyBatch_eq (by simp), List.mapM_cons, List.mapM_cons, hrefused]
    rfl
  · rw [classifyBatch_eq (by simp), List.mapM_cons, List.mapM_cons, hfailed]
    exact ⟨_, rfl, rfl⟩

end Standard

end CxxFloor
