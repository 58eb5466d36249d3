/-
# The lines of a listing

A listing tells of its batch row by row: of a file, of each group of findings
and each finding in it, of each note and each diagnostic, of what could not be
read, and at the end the sum of it.  Each row is one line of the text, with one
exception.  The reason of a note is taken over as it is, while the texts of
findings and notes are put on one line, and the reason to doubt an explicit
guide shows its condition.  A literal with a line feed in it makes such a row
several lines, and what they say is up to the source
(`Listing.condition_forges_finding`).
-/
import CxxFloor.Proofs.Batch.Entries
import CxxFloor.Proofs.Fragment.Window
import CxxFloor.Proofs.Report.Wording
import CxxFloor.Report.Format

namespace CxxFloor

namespace Listing

/-! ## Rows -/

/-- What a row of a listing tells of. -/
inductive Row where
  | file (r : FileReport)
  | feature (d : Descriptor)
  | finding (m : Match)
  | note (n : Note)
  | diagnostic (d : Diagnostic)
  /-- Nothing was found in a file. -/
  | nothing
  | blank
  /-- The failures follow. -/
  | failures
  | failure (f : Failure)
  | summary

/-- The text of a row in the listing of a batch. -/
def Row.text (b : Batch) : Row → String
  | .file r =>
    r.name ++ ": requires " ++ Standard.label r.required ++
      if b.floor < r.required then " " ++ "(above floor " ++ Standard.label b.floor ++ ")" else ""
  | .feature d =>
    "  " ++ d.id ++ " " ++ "[" ++ Standard.label d.minStandard ++ "] " ++ d.description
  | .finding m => "    " ++ place m.line m.column ++ "  " ++ flat m.text
  | .note n =>
    "  " ++ "note" ++ " " ++ place n.line n.column ++ " [" ++ n.feature ++ "] " ++ flat n.text
      ++ ": " ++ n.reason
  | .diagnostic d => "  " ++ "scan" ++ " " ++ place d.line d.column ++ " " ++ d.message
  | .nothing => "  " ++ "no newer-standard features found"
  | .blank => ""
  | .failures => "Failures:"
  | .failure f => "  " ++ f.name ++ ": " ++ f.message
  | .summary =>
    "Summary:" ++ " " ++ toString b.reports.length ++ " file(s), " ++ toString b.findingCount
      ++ " finding(s), requires " ++ Standard.label b.required ++ " (floor "
      ++ Standard.label b.floor ++ "): " ++ b.conclusion.name

/-- The rows of what was found in a file. -/
def foundRows (catalog : Catalog) (r : FileReport) : List Row :=
  (r.groups catalog).flatMap (fun g => .feature g.feature :: g.findings.map .finding)
    ++ r.notes.map .note ++ r.diagnostics.map .diagnostic

/-- The rows of a file. -/
def fileRows (catalog : Catalog) (r : FileReport) : List Row :=
  .file r
    :: (if r.groups catalog = [] ∧ r.notes = [] ∧ r.diagnostics = [] then [.nothing]
        else foundRows catalog r)
    ++ [.blank]

/-- The rows of a batch. -/
def rows (catalog : Catalog) (b : Batch) : List Row :=
  b.reports.flatMap (fileRows catalog)
    ++ (if b.failures = [] then [] else .failures :: b.failures.map .failure ++ [.blank])
    ++ [.summary]

/-- The rows of a file are those of the file itself, of its groups with their findings, of its notes
and of its diagnostics, and there may be one that nothing was found and is a blank one. -/
theorem mem_fileRows {catalog : Catalog} {r : FileReport} {row : Row}
    (h : row ∈ fileRows catalog r) :
    row = .file r ∨ row ∈ [Row.nothing, .blank] ∨
      (∃ g ∈ r.groups catalog, row = .feature g.feature ∨ ∃ m ∈ g.findings, row = .finding m) ∨
      (∃ n ∈ r.notes, row = .note n) ∨ ∃ d ∈ r.diagnostics, row = .diagnostic d := by
  unfold fileRows foundRows at h
  rcases List.mem_append.1 h with h | h
  · rcases List.mem_cons.1 h with rfl | h
    · exact .inl rfl
    · split at h
      next => exact .inr (.inl (List.mem_append_left [Row.blank] h))
      next =>
        rcases List.mem_append.1 h with h | h
        · rcases List.mem_append.1 h with h | h
          · obtain ⟨g, hg, h⟩ := List.mem_flatMap.1 h
            refine .inr (.inr (.inl ⟨g, hg, (List.mem_cons.1 h).imp_right fun h => ?_⟩))
            obtain ⟨m, hm, rfl⟩ := List.mem_map.1 h
            exact ⟨m, hm, rfl⟩
          · obtain ⟨n, hn, rfl⟩ := List.mem_map.1 h
            exact .inr (.inr (.inr (.inl ⟨n, hn, rfl⟩)))
        · obtain ⟨d, hd, rfl⟩ := List.mem_map.1 h
          exact .inr (.inr (.inr (.inr ⟨d, hd, rfl⟩)))
  · exact .inr (.inl (List.mem_cons_of_mem _ h))

theorem note_mem_rows_iff {catalog : Catalog} {b : Batch} {n : Note} :
    .note n ∈ rows catalog b ↔ ∃ r ∈ b.reports, n ∈ r.notes := by
  constructor
  · intro h
    rcases List.mem_append.1 h with h | h
    · rcases List.mem_append.1 h with h | h
      · obtain ⟨r, hr, h⟩ := List.mem_flatMap.1 h
        refine ⟨r, hr, ?_⟩
        simpa using mem_fileRows h
      · split at h <;> simp at h
    · simp at h
  · rintro ⟨r, hr, hn⟩
    have hsome : ¬(r.groups catalog = [] ∧ r.notes = [] ∧ r.diagnostics = []) := by
      rintro ⟨-, hnil, -⟩
      exact List.ne_nil_of_mem hn hnil
    have hfile : Row.note n ∈ fileRows catalog r := by
      simp [fileRows, foundRows, hsome, hn]
    exact List.mem_append_left _ (List.mem_append_left _ (List.mem_flatMap_of_mem hr hfile))

/-! ## Texts without marks -/

theorem inBold_plain (s : String) : Palette.plain.inBold s = s := by
  simp only [Palette.inBold, Palette.plain, String.empty_append, String.append_empty]

theorem conclusion_plain (c : Conclusion) : Palette.plain.conclusion c = "" := by
  cases c <;> rfl

theorem headLine_plain (b : Batch) (r : FileReport) :
    headLine .plain b.floor r = Row.text b (.file r) := by
  unfold headLine Row.text
  rw [inBold_plain]
  dsimp only [Palette.plain]
  simp only [String.append_empty]

theorem groupLines_plain (b : Batch) (g : FeatureGroup) :
    groupLines .plain g =
      (Row.feature g.feature :: g.findings.map Row.finding).map (Row.text b) := by
  rw [List.map_cons, List.map_map, groupLines]
  refine congrArg₂ List.cons ?_ rfl
  unfold Row.text
  dsimp only [Palette.plain, Palette.inYellow]
  simp only [String.empty_append, String.append_empty]

theorem bodyLines_plain (catalog : Catalog) (b : Batch) (r : FileReport) :
    bodyLines .plain catalog r = (foundRows catalog r).map (Row.text b) := by
  have hnote : noteLine .plain = Row.text b ∘ Row.note := by
    funext n
    unfold noteLine Row.text
    dsimp only [Palette.plain, Function.comp_apply]
    simp only [String.append_empty]
  have hdiagnostic : diagnosticLine .plain = Row.text b ∘ Row.diagnostic := by
    funext d
    unfold diagnosticLine Row.text
    dsimp only [Palette.plain, Function.comp_apply]
    simp only [String.append_empty]
  simp only [bodyLines, foundRows, List.map_append, List.map_flatMap, List.map_map,
    ← groupLines_plain b, hnote, hdiagnostic]

theorem summaryLine_plain (b : Batch) : summaryLine .plain b = Row.text b .summary := by
  unfold summaryLine Row.text
  rw [inBold_plain, conclusion_plain]
  dsimp only [Palette.plain]
  simp only [String.append_empty]

theorem foundRows_eq_nil_iff (catalog : Catalog) (r : FileReport) :
    foundRows catalog r = [] ↔ r.groups catalog = [] ∧ r.notes = [] ∧ r.diagnostics = [] := by
  have hgroups : (r.groups catalog).flatMap
      (fun g => Row.feature g.feature :: g.findings.map Row.finding) = [] ↔
        r.groups catalog = [] := by
    cases r.groups catalog <;> simp
  rw [foundRows, List.append_eq_nil_iff, List.append_eq_nil_iff, hgroups, List.map_eq_nil_iff,
    List.map_eq_nil_iff, and_assoc]

theorem fileLines_plain (catalog : Catalog) (b : Batch) (r : FileReport) :
    fileLines .plain catalog b.floor r = (fileRows catalog r).map (Row.text b) := by
  have hempty : (bodyLines .plain catalog r).isEmpty = true ↔
      r.groups catalog = [] ∧ r.notes = [] ∧ r.diagnostics = [] := by
    rw [bodyLines_plain catalog b, List.isEmpty_iff, List.map_eq_nil_iff, foundRows_eq_nil_iff]
  have hbody : (if (bodyLines .plain catalog r).isEmpty then
        ["  " ++ Palette.plain.green ++ "no newer-standard features found" ++ Palette.plain.reset]
      else bodyLines .plain catalog r) =
      (if r.groups catalog = [] ∧ r.notes = [] ∧ r.diagnostics = [] then [Row.nothing]
        else foundRows catalog r).map (Row.text b) := by
    simp only [hempty]
    split
    · rfl
    · exact bodyLines_plain catalog b r
  unfold fileLines fileRows
  dsimp only
  rw [headLine_plain, hbody, List.map_append, List.map_cons]
  rfl

theorem lines_plain (catalog : Catalog) (b : Batch) :
    lines .plain catalog b = (rows catalog b).map (Row.text b) := by
  have hfailures : failureLines .plain b.failures =
      (if b.failures = [] then []
        else Row.failures :: b.failures.map .failure ++ [Row.blank]).map (Row.text b) := by
    have hheading : Palette.plain.bold ++ Palette.plain.red ++ "Failures:" ++ Palette.plain.reset =
        "Failures:" := rfl
    unfold failureLines
    simp only [List.isEmpty_iff, hheading]
    split
    · rfl
    · rw [List.map_append, List.map_cons, List.map_map]
      rfl
  have hfiles : fileLines .plain catalog b.floor =
      fun r => (fileRows catalog r).map (Row.text b) :=
    funext (fileLines_plain catalog b)
  rw [lines, rows, hfiles, hfailures, summaryLine_plain, List.map_append, List.map_append,
    List.map_flatMap]
  rfl

/-! ## Lines -/

theorem newline_notMem_of_mem_splitOn {cs line : List Char} (h : line ∈ cs.splitOn '\n') :
    '\n' ∉ line := by
  induction cs generalizing line with
  | nil =>
      obtain rfl : line = [] := by simpa using h
      exact List.not_mem_nil
  | cons c cs ih =>
      rw [List.splitOn_cons_eq_if_modifyHead] at h
      split at h
      next =>
        rcases List.mem_cons.1 h with rfl | h
        · exact List.not_mem_nil
        · exact ih h
      next hc =>
        obtain ⟨first, rest, hcs⟩ := List.exists_cons_of_ne_nil (List.splitOn_ne_nil '\n' cs)
        have hc : '\n' ≠ c := by
          rintro rfl
          exact hc BEq.rfl
        rw [hcs] at h ih
        rcases List.mem_cons.1 h with rfl | h
        · exact List.not_mem_cons_of_ne_of_not_mem hc (ih List.mem_cons_self)
        · exact ih (List.mem_cons_of_mem _ h)

theorem splitOn_ofLines (ls : List String) :
    (ofLines ls).toList.splitOn '\n' = ls.flatMap (·.toList.splitOn '\n') ++ [[]] := by
  induction ls with
  | nil => rfl
  | cons l ls ih =>
      have hcons : (ofLines (l :: ls)).toList = l.toList ++ '\n' :: (ofLines ls).toList := by
        rw [ofLines, List.map_cons, String.join_cons, String.toList_append, String.toList_append,
          List.append_assoc]
        rfl
      rw [hcons, List.splitOn_append_cons_self, ih, List.flatMap_cons, List.append_assoc]

theorem flatMap_splitOn_eq_iff (ls : List String) :
    ls.flatMap (·.toList.splitOn '\n') = ls.map (·.toList) ↔ ∀ l ∈ ls, IsLine l := by
  constructor
  · intro h l hl
    have hmem : l.toList ∈ ls.flatMap (·.toList.splitOn '\n') := by
      rw [h]
      exact List.mem_map_of_mem hl
    obtain ⟨k, -, hk⟩ := List.mem_flatMap.1 hmem
    exact newline_notMem_of_mem_splitOn hk
  · intro h
    induction ls with
    | nil => rfl
    | cons l ls ih =>
        obtain ⟨hl, hls⟩ := List.forall_mem_cons.1 h
        rw [List.flatMap_cons, List.splitOn_eq_singleton hl, ih hls]
        rfl

/-! ## What is on one line -/

theorem isLine_flat (s : String) : IsLine (flat s) := by
  unfold IsLine flat
  rw [String.toList_ofList, List.mem_map]
  rintro ⟨c, -, hc⟩
  split at hc
  next => exact absurd hc (by decide)
  next hne => exact hne hc

theorem isLine_place (line column : Int) : IsLine (place line column) := by
  unfold place
  simp +decide only [isLine_append, isLine_toString, and_self]

theorem isLine_label (n : Int) : IsLine (Standard.label n) := by
  unfold Standard.label
  simp +decide only [isLine_append, isLine_toString, and_self]

theorem isLine_file (b : Batch) {r : FileReport} (h : IsLine r.name) :
    IsLine (Row.text b (.file r)) := by
  unfold Row.text
  dsimp only
  split <;> simp +decide only [isLine_append, isLine_label, h, and_self]

theorem isLine_feature (b : Batch) {d : Descriptor} (hid : IsLine d.id)
    (hdescription : IsLine d.description) : IsLine (Row.text b (.feature d)) := by
  unfold Row.text
  simp +decide only [isLine_append, isLine_label, hid, hdescription, and_self]

theorem isLine_finding (b : Batch) (m : Match) : IsLine (Row.text b (.finding m)) := by
  unfold Row.text
  simp +decide only [isLine_append, isLine_place, isLine_flat, and_self]

theorem isLine_note_iff (b : Batch) (n : Note) :
    IsLine (Row.text b (.note n)) ↔ IsLine n.feature ∧ IsLine n.reason := by
  unfold Row.text
  simp +decide only [isLine_append, isLine_place, isLine_flat, and_self, and_true, true_and]

theorem isLine_diagnostic (b : Batch) {d : Diagnostic} (h : IsLine d.message) :
    IsLine (Row.text b (.diagnostic d)) := by
  unfold Row.text
  simp +decide only [isLine_append, isLine_place, h, and_self]

theorem isLine_fixed (b : Batch) {row : Row} (h : row ∈ [Row.nothing, .blank, .failures]) :
    IsLine (row.text b) := by
  simp only [List.mem_cons, List.not_mem_nil, or_false] at h
  rcases h with rfl | rfl | rfl
  all_goals
    unfold Row.text
    dsimp only
    decide

theorem isLine_failure (b : Batch) {f : Failure} (hname : IsLine f.name)
    (hmessage : IsLine f.message) : IsLine (Row.text b (.failure f)) := by
  unfold Row.text
  simp +decide only [isLine_append, hname, hmessage, and_self]

theorem isLine_summary (b : Batch) : IsLine (Row.text b .summary) := by
  have hcount : ∀ n : Nat, IsLine (toString n) := fun n => isLine_toString n
  have hname : IsLine b.conclusion.name := by cases b.conclusion <;> decide
  unfold Row.text
  simp +decide only [isLine_append, isLine_label, hcount, hname, and_self]

/-! ## The rows of a batch -/

section File

variable {catalog : Catalog} {disabled : List String} {d : Dispatcher} {name text : String}
  {floor : Int} {row : Row}

/-- The features that the groups of a report are about are on one line. -/
theorem isLine_of_mem_groups (hmake : Dispatcher.make catalog standardMatchers disabled = .ok d)
    (hcatalog : catalog.OnLines) {g : FeatureGroup}
    (h : g ∈ (d.reportOn name text floor).groups catalog) :
    IsLine g.feature.id ∧ IsLine g.feature.description := by
  obtain ⟨hg, hne⟩ := List.mem_filter.1 h
  obtain ⟨e, he, rfl⟩ := List.mem_map.1 hg
  refine ⟨?_, (hcatalog e he).1⟩
  obtain ⟨r, hr⟩ : ∃ r, r ∈ (FeatureGroup.of (d.reportOn name text floor).classification.findings
      e).findings := by
    refine List.exists_mem_of_ne_nil _ ?_
    simpa using hne
  obtain ⟨hr, hid⟩ := List.mem_filter.1 (List.mem_mergeSort.1 hr)
  obtain ⟨m, hm, hfeature⟩ := Dispatcher.of_mem_run (List.mem_mergeSort.1 hr)
  have hid : r.feature = e.id := by simpa using hid
  rw [FeatureGroup.of, ← hid, hfeature]
  exact Dispatcher.isLine_id (Dispatcher.of_make hmake m hm)

/-- A note of a report is on one line, in its feature and its reason, unless it shows the lines of
a condition in the text. -/
theorem isLine_of_mem_report_notes
    (hmake : Dispatcher.make catalog standardMatchers disabled = .ok d)
    (hcatalog : catalog.OnLines) {n : Note} (h : n ∈ (d.reportOn name text floor).notes) :
    IsLine n.feature ∧
      (IsLine n.reason ∨ ∃ f ∈ (scan name text).fragments, n.ShowsLines f) := by
  obtain ⟨rfl, hmatchers⟩ := Dispatcher.of_register hmake
  obtain ⟨f, hf, hn⟩ := Dispatcher.mem_notes_run.1 (List.mem_mergeSort.1 h)
  refine (Dispatcher.isLine_of_mem_notes (fun m hm => (hmatchers m hm).1) hcatalog hn).imp_right ?_
  exact Or.imp_right fun hshows => ⟨f, hf, hshows⟩

/-- A row of a report is on one line, unless it is a note that shows the lines of a condition in the
text. -/
theorem isLine_of_mem_fileRows (hmake : Dispatcher.make catalog standardMatchers disabled = .ok d)
    (hcatalog : catalog.OnLines) (hname : IsLine name) (b : Batch)
    (h : row ∈ fileRows catalog (d.reportOn name text floor)) :
    IsLine (row.text b) ∨
      ∃ n, row = .note n ∧ ∃ f ∈ (scan name text).fragments, n.ShowsLines f := by
  obtain rfl | h | ⟨g, hg, rfl | ⟨m, -, rfl⟩⟩ | ⟨n, hn, rfl⟩ | ⟨e, he, rfl⟩ := mem_fileRows h
  · exact .inl (isLine_file b hname)
  · exact .inl (isLine_fixed b (List.mem_append_left [Row.failures] h))
  · obtain ⟨hid, hdescription⟩ := isLine_of_mem_groups hmake hcatalog hg
    exact .inl (isLine_feature b hid hdescription)
  · exact .inl (isLine_finding b m)
  · obtain ⟨hfeature, hreason | hshows⟩ := isLine_of_mem_report_notes hmake hcatalog hn
    · exact .inl ((isLine_note_iff b n).2 ⟨hfeature, hreason⟩)
    · exact .inr ⟨n, rfl, hshows⟩
  · exact .inl (isLine_diagnostic b (isLine_of_mem_diagnostics he))

end File

section Batch

variable {catalog : Catalog} {disabled : List String} {p : Plan} {signal : Signal}
  {is : List Input} {b : Batch}

/-- A row of a batch is on one line, unless it is a note that shows the lines of a condition in the
text of an input. -/
theorem isLine_of_mem_rows
    (hmake : Dispatcher.make catalog standardMatchers disabled = .ok p.dispatcher)
    (hcatalog : catalog.OnLines) (hentries : p.entries signal is = .ok b.entries)
    (hnames : ∀ i ∈ is, IsLine i.name) (hmessages : ∀ f ∈ b.failures, IsLine f.message)
    {row : Row} (h : row ∈ rows catalog b) :
    IsLine (row.text b) ∨ ∃ n, row = .note n ∧ ∃ i ∈ is, ∃ text,
      i.text? p.tree p.codec = some text ∧
        ∃ f ∈ (scan i.name text).fragments, n.ShowsLines f := by
  have hes := Plan.become_of_entries ⟨catalog, standardExaminers, disabled, hmake⟩ hentries
  rcases List.mem_append.1 h with h | h
  · rcases List.mem_append.1 h with h | h
    · obtain ⟨r, hr, h⟩ := List.mem_flatMap.1 h
      rw [Batch.reports, Plan.reports_of_become hes] at hr
      obtain ⟨i, hi, hr⟩ := List.mem_filterMap.1 hr
      obtain ⟨text, htext, rfl⟩ := Option.map_eq_some_iff.1 hr
      refine (isLine_of_mem_fileRows hmake hcatalog (hnames i hi) b h).imp_right ?_
      rintro ⟨n, hn, hshows⟩
      exact ⟨n, hn, i, hi, text, htext, hshows⟩
    · refine .inl ?_
      split at h
      next => cases h
      next =>
        rcases List.mem_append.1 h with h | h
        · rcases List.mem_cons.1 h with rfl | h
          · exact isLine_fixed b (by simp)
          · obtain ⟨f, hf, rfl⟩ := List.mem_map.1 h
            have hmessage := hmessages f hf
            rw [Batch.failures, Plan.failures_of_become hes] at hf
            obtain ⟨i, hi, hf⟩ := List.mem_filterMap.1 hf
            obtain ⟨reason, -, rfl⟩ := Option.map_eq_some_iff.1 hf
            exact isLine_failure b (hnames i hi) hmessage
        · obtain rfl := List.mem_singleton.1 h
          exact isLine_fixed b (by simp)
  · obtain rfl := List.mem_singleton.1 h
    exact .inl (isLine_summary b)

/-- The lines of a listing without colours are those of its rows, with an empty one behind the last
line feed. -/
theorem splitOn_render (catalog : Catalog) (b : Batch) :
    (ReportFormat.human.render catalog false b).toList.splitOn '\n' =
      (rows catalog.orStandard b).flatMap (fun row => (row.text b).toList.splitOn '\n') ++ [[]] := by
  show (ofLines (lines .plain catalog.orStandard b)).toList.splitOn '\n' = _
  rw [lines_plain, splitOn_ofLines, List.flatMap_map]

/-- The rows of a listing without colours are its lines exactly if each of them is on one line. -/
theorem splitOn_render_eq_iff (catalog : Catalog) (b : Batch) :
    (ReportFormat.human.render catalog false b).toList.splitOn '\n' =
        (rows catalog.orStandard b).map (fun row => (row.text b).toList) ++ [[]] ↔
      ∀ row ∈ rows catalog.orStandard b, IsLine (row.text b) := by
  have hiff := flatMap_splitOn_eq_iff ((rows catalog.orStandard b).map (Row.text b))
  rw [List.flatMap_map, List.map_map, List.forall_mem_map] at hiff
  rw [splitOn_render, List.append_left_inj]
  exact hiff

/-- A line of the reason of a note, between two line feeds, is a line of the listing. -/
theorem mem_splitOn_of_note {n : Note} (h : .note n ∈ rows catalog.orStandard b)
    {before line after : String}
    (hreason : n.reason = before ++ "\n" ++ line ++ "\n" ++ after) (hline : IsLine line) :
    line.toList ∈ (ReportFormat.human.render catalog false b).toList.splitOn '\n' := by
  obtain ⟨head, htext⟩ : ∃ head, Row.text b (.note n) = head ++ n.reason := by
    unfold Row.text
    exact ⟨_, rfl⟩
  have hfeed : "\n".toList = ['\n'] := rfl
  have hchars : (Row.text b (.note n)).toList =
      (head.toList ++ before.toList) ++ '\n' :: (line.toList ++ '\n' :: after.toList) := by
    simp only [htext, hreason, String.toList_append, hfeed, List.append_assoc, List.cons_append,
      List.nil_append]
  rw [splitOn_render]
  refine List.mem_append_left _ (List.mem_flatMap.2 ⟨_, h, ?_⟩)
  rw [hchars, List.splitOn_append_cons_self, List.splitOn_append_cons_self,
    List.splitOn_eq_singleton hline]
  exact List.mem_append_right _ (List.mem_append_left _ List.mem_cons_self)

/-- The listing of a batch without colours.

Its lines are those of its rows, with an empty one behind the last line feed.  Every row is on one
line, unless it is a note that shows the lines of a condition; and the rows are the lines exactly if
no reason of a note is on several. -/
theorem rows_are_lines
    (hmake : Dispatcher.make catalog standardMatchers disabled = .ok p.dispatcher)
    (hcatalog : catalog.OnLines) (hentries : p.entries signal is = .ok b.entries)
    (hnames : ∀ i ∈ is, IsLine i.name) (hmessages : ∀ f ∈ b.failures, IsLine f.message) :
    ((ReportFormat.human.render catalog false b).toList.splitOn '\n' =
        (rows catalog b).flatMap (fun row => (row.text b).toList.splitOn '\n') ++ [[]]) ∧
      (∀ row ∈ rows catalog b, IsLine (row.text b) ∨ ∃ n, row = .note n ∧ ∃ i ∈ is, ∃ text,
        i.text? p.tree p.codec = some text ∧
          ∃ f ∈ (scan i.name text).fragments, n.ShowsLines f) ∧
      ((ReportFormat.human.render catalog false b).toList.splitOn '\n' =
          (rows catalog b).map (fun row => (row.text b).toList) ++ [[]] ↔
        ∀ r ∈ b.reports, ∀ n ∈ r.notes, IsLine n.reason) := by
  have hrows : ∀ row ∈ rows catalog b, IsLine (row.text b) ∨ ∃ n, row = .note n ∧ ∃ i ∈ is,
      ∃ text, i.text? p.tree p.codec = some text ∧
        ∃ f ∈ (scan i.name text).fragments, n.ShowsLines f :=
    fun row h => isLine_of_mem_rows hmake hcatalog hentries hnames hmessages h
  have hsplit := splitOn_render catalog b
  have hiff := splitOn_render_eq_iff catalog b
  rw [Catalog.orStandard_of_make hmake] at hsplit hiff
  refine ⟨hsplit, hrows, ?_⟩
  rw [hiff]
  constructor
  · intro h r hr n hn
    exact ((isLine_note_iff b n).1 (h _ (note_mem_rows_iff.2 ⟨r, hr, hn⟩))).2
  · intro h row hrow
    obtain hline | ⟨n, rfl, i, -, text, -, f, -, hfeature, -⟩ := hrows row hrow
    · exact hline
    · obtain ⟨r, hr, hn⟩ := note_mem_rows_iff.1 hrow
      have hid : IsLine n.feature := hfeature ▸ isLine_ofList (by decide)
      exact (isLine_note_iff b n).2 ⟨hid, h r hr n hn⟩

/-- A guide whose condition is on one line: the rows are the lines. -/
theorem rows_are_lines_guide :
    Dispatcher.make standardCatalog standardMatchers [] = .ok (.standard []) ∧
    standardCatalog.OnLines ∧ IsLine "a" ∧
    ∃ r, (⟨.fresh "work", "utf-8", 20, .standard []⟩ : Plan).entries .never
        [⟨"a", some "explicit(N > 1) Box(int) -> Box<long>;", none⟩] = .ok [.report r] ∧
      (∃ n ∈ r.notes, n.reason = "deduction guide restriction depends on explicit(N > 1)") ∧
      (ReportFormat.human.render standardCatalog false
          ⟨[.report r], 20, true⟩).toList.splitOn '\n' =
        (rows standardCatalog ⟨[.report r], 20, true⟩).map
          (fun row => (row.text ⟨[.report r], 20, true⟩).toList) ++ [[]] := by
  have hmake : Dispatcher.make standardCatalog standardMatchers [] = .ok (.standard []) :=
    Dispatcher.make_standard (by simp)
  have hentries := Plan.entries_text (p := ⟨.fresh "work", "utf-8", 20, .standard []⟩)
    ⟨_, _, _, hmake⟩ "a" "explicit(N > 1) Box(int) -> Box<long>;"
  have hplain : (Sheet.ofLexemes ((tokens "explicit(N > 1) Box(int) -> Box<long>;".toList).map
      (·.toLexeme))).directives = [] := by decide +kernel
  have hreason : ∃ f ∈ (scan "a" "explicit(N > 1) Box(int) -> Box<long>;").fragments,
      restrictedGuide.kinds.contains f.kind = true ∧ (restrictedGuide.examine f.view).reason? =
        some "deduction guide restriction depends on explicit(N > 1)" := by
    rw [scan_fragments_eq hplain]
    decide +kernel
  have hlines : ∀ f ∈ (scan "a" "explicit(N > 1) Box(int) -> Box<long>;").fragments,
      ∀ condition ∈ f.view.condition?, ∀ t ∈ condition, IsLine t.text := by
    rw [scan_fragments_eq hplain]
    decide +kernel
  refine ⟨hmake, onLines_standardCatalog, by decide, _, hentries,
    Dispatcher.exists_note_of_reason (by simp [standardMatchers]) (by simp) hreason, ?_⟩
  refine (rows_are_lines (b := ⟨_, 20, true⟩) hmake onLines_standardCatalog hentries (by decide)
    (by simp [Batch.failures, Entry.failure?])).2.2.2 fun r hr n hn => ?_
  obtain rfl := List.mem_singleton.1 hr
  obtain ⟨-, hline | ⟨f, hf, -, condition, hcondition, ⟨t, ht, hspans⟩, -⟩⟩ :=
    isLine_of_mem_report_notes hmake onLines_standardCatalog hn
  · exact hline
  · exact absurd (hlines f hf condition hcondition t ht) hspans

/-- A literal in the condition of a guide that has a line of its own: the listing has that line, and
no finding is what it says. -/
theorem condition_forges_finding :
    ∃ r, (⟨.fresh "work", "utf-8", 20, .standard []⟩ : Plan).entries .never
        [⟨"a", some "explicit(R\"(\n    9:9  7uz\n)\") Box(int) -> Box<long>;", none⟩] =
          .ok [.report r] ∧
      "    9:9  7uz".toList ∈ (ReportFormat.human.render standardCatalog false
        ⟨[.report r], 20, true⟩).toList.splitOn '\n' ∧
      (∀ m ∈ r.classification.findings, m.text ≠ "7uz") ∧
      (ReportFormat.human.render standardCatalog false
          ⟨[.report r], 20, true⟩).toList.splitOn '\n' ≠
        (rows standardCatalog ⟨[.report r], 20, true⟩).map
          (fun row => (row.text ⟨[.report r], 20, true⟩).toList) ++ [[]] := by
  have hmake : Dispatcher.make standardCatalog standardMatchers [] = .ok (.standard []) :=
    Dispatcher.make_standard (by simp)
  have hentries := Plan.entries_text (p := ⟨.fresh "work", "utf-8", 20, .standard []⟩)
    ⟨_, _, _, hmake⟩ "a" "explicit(R\"(\n    9:9  7uz\n)\") Box(int) -> Box<long>;"
  have hplain : (Sheet.ofLexemes ((tokens
      "explicit(R\"(\n    9:9  7uz\n)\") Box(int) -> Box<long>;".toList).map
      (·.toLexeme))).directives = [] := by decide +kernel
  have hreason : ∃ f ∈ (scan "a"
      "explicit(R\"(\n    9:9  7uz\n)\") Box(int) -> Box<long>;").fragments,
      restrictedGuide.kinds.contains f.kind = true ∧ (restrictedGuide.examine f.view).reason? =
        some ("deduction guide restriction depends on explicit(R\"(" ++ "\n" ++ "    9:9  7uz"
          ++ "\n" ++ ")\")") := by
    rw [scan_fragments_eq hplain]
    decide +kernel
  have hfound : ∀ f ∈ (scan "a"
      "explicit(R\"(\n    9:9  7uz\n)\") Box(int) -> Box<long>;").fragments,
      ∀ m ∈ standardMatchers, ∀ a ∈ Dispatcher.match? (m.outcome f), a.text ≠ "7uz" := by
    rw [scan_fragments_eq hplain]
    decide +kernel
  obtain ⟨n, hn, hshown⟩ : ∃ n ∈ (standardReport "a"
      "explicit(R\"(\n    9:9  7uz\n)\") Box(int) -> Box<long>;" 20 []).notes, n.reason = _ :=
    Dispatcher.exists_note_of_reason (by simp [standardMatchers]) (by simp) hreason
  have hrow : .note n ∈ rows standardCatalog ⟨[.report (standardReport "a"
      "explicit(R\"(\n    9:9  7uz\n)\") Box(int) -> Box<long>;" 20 [])], 20, true⟩ :=
    note_mem_rows_iff.2 ⟨_, List.mem_cons_self, hn⟩
  refine ⟨_, hentries, mem_splitOn_of_note hrow hshown (by decide), ?_, ?_⟩
  · intro a ha
    obtain ⟨e, he, hfeature⟩ := Dispatcher.of_mem_run (List.mem_mergeSort.1 ha)
    obtain ⟨m, hstandard, rfl⟩ := Dispatcher.exists_matcher (Dispatcher.mem_standardExaminers he)
    obtain ⟨f, hf, -, ha⟩ := (Dispatcher.mem_findings_iff hstandard (by simp)).1 ⟨ha, hfeature⟩
    exact hfound f hf m hstandard a ha
  · intro h
    have hline := ((isLine_note_iff _ n).1 ((splitOn_render_eq_iff _ _).1 h _ hrow)).2
    rw [hshown] at hline
    exact absurd hline (by decide)

end Batch

end Listing

end CxxFloor
