/-
# A document says what its batch holds

The document of a batch is compared with what went into the batch: its inputs,
what is read of them, and the reports on those that can be read
(`Document.Accounts`).  Every finding has one record and every record one
finding; the numbers in the summary are those of the lists beside it; and the
standards that are required are the greatest of the standards that the records
name.

The batch may have been made under any signal, since the signal only decides
whether it was made (`Plan.become_of_entries`), and through any codecs.  Its
catalog is the one that it was classified with: the standard one where an empty
catalog was given.  A report on it makes the same exchange, so its document has
all the records; an empty catalog by itself has none to give
(`records_of_entries_eq_nil`).
-/
import CxxFloor.Proofs.Batch.Verdict
import CxxFloor.Proofs.Report.Encoding
import CxxFloor.Proofs.Report.Grouping
import Mathlib.Algebra.BigOperators.Ring.Finset

namespace CxxFloor

namespace Json

/-- What stands under a key of an object. -/
def field? (key : String) : Json → Option Json
  | object fields => fields.lookup key
  | _ => none

/-- The number under a key of an object. -/
def number? (key : String) (j : Json) : Option Int :=
  match j.field? key with
  | some (number n) => some n
  | _ => none

/-- The text under a key of an object. -/
def text? (key : String) (j : Json) : Option String :=
  match j.field? key with
  | some (text s) => some s
  | _ => none

end Json

namespace Document

/-- The record of a finding in a file, with the standard that the catalog gives for its feature. -/
def IsRecord (catalog : Catalog) (finding : String × Match) (j : Json) : Prop :=
  ∃ d, catalog.find? finding.2.feature = some d ∧ j = record finding.1 d finding.2

/-- The standards that the catalog gives for the features of findings. -/
def standardsOf (catalog : Catalog) (findings : List Match) : List Int :=
  (findings.filterMap fun m => catalog.find? m.feature).map (·.minStandard)

/-- The parts of a document say of the batch that was made of the inputs all that there is to say,
and nothing else. -/
structure Accounts (catalog : Catalog) (p : Plan) (is : List Input) (b : Batch)
    (records notes diagnostics failures files : List Json) (summary : Json) : Prop where
  /-- The files are the inputs that can be read, in their order. -/
  reports : b.reports = is.filterMap fun i =>
    (i.text? p.tree p.codec).map fun text => p.dispatcher.reportOn i.name text p.floor
  /-- The findings of a file are listed by feature. -/
  listed : ∀ r ∈ b.reports, ListedByFeature catalog r.classification.findings (r.listed catalog)
  /-- The records are those of the findings listed, file by file. -/
  recorded : List.Forall₂ (IsRecord catalog)
    (b.reports.flatMap fun r => (r.listed catalog).map fun m => (r.name, m)) records
  noted : notes = b.reports.flatMap fun r => r.notes.map (note r.name)
  diagnosed : diagnostics = b.reports.flatMap fun r => r.diagnostics.map (diagnostic r.name)
  /-- The failures are the inputs that cannot be read, in their order. -/
  failed : failures = is.filterMap fun i =>
    (i.reason? p.tree p.codec).map fun reason => failure (.unreadable i.name reason)
  filed : files = b.reports.map file
  inputs : files.length + failures.length = is.length
  floor : b.floor = p.floor
  /-- The findings are counted alike in the files, in the summary and by the records. -/
  counts : ∃ counts : List Int, files.map (·.number? "findings") = counts.map some ∧
    counts.sum = records.length ∧ summary.number? "findings" = some (records.length : Int)
  /-- The batch requires the greatest of what its files require. -/
  required : ∃ (standards : List Int) (n : Int),
    files.map (·.number? "requiredStandard") = standards.map some ∧
    summary.number? "requiredStandard" = some n ∧ IsGreatestOr p.floor standards n
  /-- A file requires the greatest of the standards in its records. -/
  standards : ∀ r ∈ b.reports,
    IsGreatestOr p.floor (standardsOf catalog (r.listed catalog)) r.required
  /-- The outcome is the verdict on the files and the failures. -/
  outcome : ∃ name, summary.text? "outcome" = some name ∧
    (name = "failure" ↔ is = [] ∨ failures ≠ []) ∧
    (name = "ok" ↔ is ≠ [] ∧ failures = [] ∧ (∀ r ∈ b.reports, r.required ≤ p.floor) ∧
      (b.failOnUnknown = true → notes = [] ∧ diagnostics = [])) ∧
    (name = "violation" ↔ name ≠ "failure" ∧ name ≠ "ok")

end Document

/-! ## Standards -/

theorem Classification.required_isGreatestOr (matched : List Match) (c : Catalog) (floor : Int) :
    IsGreatestOr floor (Document.standardsOf c (of matched c floor).findings)
      (of matched c floor).required := by
  have hstandards : Document.standardsOf c (of matched c floor).findings =
      (((of matched c floor).findings.map (·.feature)).filterMap c.find?).map (·.minStandard) := by
    rw [Document.standardsOf, List.filterMap_map]
    rfl
  rw [hstandards]
  exact .getD_max? _ _

/-! ## Records -/

theorem Conclusion.name_eq_iff (c : Conclusion) :
    (c.name = "failure" ↔ c = .failure) ∧ (c.name = "ok" ↔ c = .ok) ∧
      (c.name = "violation" ↔ c = .violation) := by
  cases c <;> simp [name]

/-- The files have neither notes nor diagnostics exactly if the lists of these are empty. -/
theorem Batch.forall_known_iff {b : Batch} {f : FileReport → Note → Json}
    {g : FileReport → Diagnostic → Json} :
    (∀ r ∈ b.reports, r.notes = [] ∧ r.diagnostics = []) ↔
      (b.reports.flatMap fun r => r.notes.map (f r)) = [] ∧
        (b.reports.flatMap fun r => r.diagnostics.map (g r)) = [] := by
  simp only [List.flatMap_eq_nil_iff, List.map_eq_nil_iff]
  exact forall₂_and

theorem forall₂_flatMap {α β γ : Type} {R : β → γ → Prop} {f : α → List β} {g : α → List γ}
    {l : List α} (h : ∀ a ∈ l, List.Forall₂ R (f a) (g a)) :
    List.Forall₂ R (l.flatMap f) (l.flatMap g) := by
  induction l with
  | nil => exact .nil
  | cons a l ih =>
      obtain ⟨ha, hl⟩ := List.forall_mem_cons.1 h
      exact List.rel_append ha (ih hl)

namespace Document

theorem forall₂_records (r : FileReport) (catalog : Catalog) :
    List.Forall₂ (IsRecord catalog) ((r.listed catalog).map fun m => (r.name, m))
      (records catalog r) := by
  unfold records FileReport.listed
  rw [List.map_flatMap]
  refine forall₂_flatMap fun g hg => ?_
  obtain ⟨d, hd, rfl⟩ := List.mem_map.1 (List.mem_filter.1 hg).1
  refine List.forall₂_map_left_iff.2 (List.forall₂_map_right_iff.2 (List.forall₂_same.2 ?_))
  intro m hm
  have hfeature : m.feature = d.id := by
    simpa using (List.mem_filter.1 (List.mem_mergeSort.1 hm)).2
  exact ⟨d, hfeature ▸ Catalog.find?_of_mem hd, rfl⟩

theorem length_records {rs : List FileReport} {catalog : Catalog}
    (h : ∀ r ∈ rs, ListedByFeature catalog r.classification.findings (r.listed catalog)) :
    (rs.flatMap (records catalog)).length = (rs.flatMap (·.classification.findings)).length := by
  rw [List.length_flatMap, List.length_flatMap]
  refine congrArg List.sum (List.map_congr_left fun r hr => ?_)
  rw [← (forall₂_records r catalog).length_eq, List.length_map]
  exact (h r hr).perm.length_eq

theorem number?_file (r : FileReport) :
    (file r).number? "findings" = some (r.classification.findings.length : Int) ∧
      (file r).number? "requiredStandard" = some r.required := by
  constructor <;> rfl

theorem read_summary (b : Batch) :
    (summary b).number? "findings" = some (b.findingCount : Int) ∧
      (summary b).number? "requiredStandard" = some b.required ∧
      (summary b).text? "outcome" = some b.conclusion.name := by
  refine ⟨?_, ?_, ?_⟩ <;> rfl

/-- The parts of a document of the entries of inputs account for them. -/
theorem accounts {catalog : Catalog} {disabled : List String} {p : Plan}
    (hmake : Dispatcher.make catalog standardMatchers disabled = .ok p.dispatcher)
    {signal : Signal} {is : List Input} {es : List Entry}
    (hentries : p.entries signal is = .ok es) (failOnUnknown : Bool) :
    ∃ records notes diagnostics failures files summary,
      ofBatch catalog ⟨es, p.floor, failOnUnknown⟩ =
        .object [("records", .array records), ("notes", .array notes),
          ("diagnostics", .array diagnostics), ("failures", .array failures),
          ("files", .array files), ("summary", summary)] ∧
      Accounts catalog p is ⟨es, p.floor, failOnUnknown⟩ records notes diagnostics failures files
        summary := by
  have hes := Plan.become_of_entries ⟨catalog, standardExaminers, disabled, hmake⟩ hentries
  have hreports : Batch.reports ⟨es, p.floor, failOnUnknown⟩ = _ := Plan.reports_of_become hes
  have hfailures : Batch.failures ⟨es, p.floor, failOnUnknown⟩ = _ := Plan.failures_of_become hes
  generalize hb : Batch.mk es p.floor failOnUnknown = b at hreports hfailures ⊢
  have hreport : ∀ r ∈ b.reports, ∃ name text, r = p.dispatcher.reportOn name text p.floor := by
    intro r hr
    rw [hreports] at hr
    obtain ⟨i, -, hr⟩ := List.mem_filterMap.1 hr
    obtain ⟨text, -, rfl⟩ := Option.map_eq_some_iff.1 hr
    exact ⟨i.name, text, rfl⟩
  have hlisted : ∀ r ∈ b.reports,
      ListedByFeature catalog r.classification.findings (r.listed catalog) := by
    intro r hr
    obtain ⟨name, text, rfl⟩ := hreport r hr
    exact listedByFeature hmake name text p.floor
  have hcount : (b.reports.flatMap (records catalog)).length = b.findingCount :=
    length_records hlisted
  have hfloor : b.floor = p.floor := by rw [← hb]
  have hentries : b.entries = es := by rw [← hb]
  obtain ⟨hfindings, hrequired, houtcome⟩ := read_summary b
  refine ⟨_, _, _, _, _, _, rfl, ?_⟩
  exact {
    reports := hreports
    listed := hlisted
    recorded := forall₂_flatMap fun r _ => forall₂_records r catalog
    noted := rfl
    diagnosed := rfl
    failed := by
      rw [hfailures, List.map_filterMap]
      simp only [Option.map_map]
      rfl
    filed := rfl
    inputs := by
      rw [List.length_map, List.length_map, b.length_reports_add_failures, hentries]
      exact hes.length_eq.symm
    floor := hfloor
    counts := by
      refine ⟨b.reports.map fun r => (r.classification.findings.length : Int), ?_, ?_, ?_⟩
      · rw [List.map_map, List.map_map]
        exact List.map_congr_left fun r _ => (number?_file r).1
      · rw [hcount, Batch.findingCount, List.length_flatMap, Nat.cast_list_sum, List.map_map]
        rfl
      · rw [hcount, hfindings]
    required := by
      refine ⟨b.reports.map (·.required), b.required, ?_, hrequired, ?_⟩
      · rw [List.map_map, List.map_map]
        exact List.map_congr_left fun r _ => (number?_file r).2
      · exact hfloor ▸ b.required_isGreatestOr
    standards := by
      intro r hr
      have hperm := (hlisted r hr).perm
      obtain ⟨name, text, rfl⟩ := hreport r hr
      have hgreatest : IsGreatestOr p.floor
          (standardsOf p.dispatcher.catalog
            (p.dispatcher.reportOn name text p.floor).classification.findings)
          (p.dispatcher.reportOn name text p.floor).required :=
        Classification.required_isGreatestOr _ _ _
      rw [(Dispatcher.of_register hmake).1] at hgreatest
      exact hgreatest.perm ((hperm.filterMap _).map _)
    outcome := by
      have hnil : b.entries = [] ↔ is = [] := by
        rw [hentries, ← List.length_eq_zero_iff, ← hes.length_eq, List.length_eq_zero_iff]
      obtain ⟨hfailure, hok, hviolation⟩ := b.conclusion.name_eq_iff
      refine ⟨b.conclusion.name, houtcome, ?_, ?_, ?_⟩
      · rw [hfailure, Batch.conclusion_eq_failure_iff, hnil, or_comm, ne_eq,
          ne_eq, List.map_eq_nil_iff]
      · rw [hok, Batch.conclusion_eq_ok_iff, Batch.required_le_floor_iff,
          ne_eq, hnil, List.map_eq_nil_iff, hfloor, Batch.forall_known_iff]
        exact and_left_comm
      · rw [ne_eq, ne_eq, hfailure, hok, hviolation]
        cases b.conclusion <;> simp }

theorem records_of_entries_eq_nil {catalog : Catalog} (h : catalog.entries = []) (r : FileReport) :
    records catalog r = [] := by
  rw [records, FileReport.groups, h]
  rfl

end Document

end CxxFloor
