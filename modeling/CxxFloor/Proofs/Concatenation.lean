/-
# Two texts in a row

Complete declarations and a text behind them are classified part by part: what
is found in both is what is found in the first, followed by what is found in
the second at its moved places (`classifyText_append`).  The fragments of both
texts are those of the parts (`CompleteText.fragments_append`), and nothing of
the second part is found before the end of the first, so sorting by offset
leaves the parts apart (`found_mergeSort_append`, `notes_mergeSort_append`).
The declarations leave no remark, and the remarks on the second part are moved
with it.
-/
import CxxFloor.Proofs.Fragment.Concatenation
import CxxFloor.Proofs.Layout

namespace CxxFloor

/-! ## Moved matches and notes -/

def Match.shift (n l : Nat) (m : Match) : Match := { m with toSpot := m.toSpot.shift n l }

def Note.shift (n l : Nat) (m : Note) : Note := { m with toSpot := m.toSpot.shift n l }

section Shift

variable {c : Catalog} {n l : Nat}

theorem Match.eq_shift {a b : Match} (h : a.Like (fun s s' => s' = s.shift n l) b)
    (hfile : a.file = b.file) : b = a.shift n l := by
  obtain ⟨spot, feature, file⟩ := a
  obtain ⟨spot', feature', file'⟩ := b
  obtain ⟨rfl, rfl⟩ := h
  obtain rfl := hfile
  rfl

theorem Note.eq_shift {a b : Note} (h : a.Like (fun s s' => s' = s.shift n l) b) :
    b = a.shift n l := by
  obtain ⟨spot, feature, reason, candidates⟩ := a
  obtain ⟨spot', feature', reason', candidates'⟩ := b
  obtain ⟨rfl, rfl, rfl, rfl⟩ := h
  rfl

theorem Catalog.findingLe_shift (a b : Match) :
    c.findingLe (a.shift n l) (b.shift n l) = c.findingLe a b := by
  rw [Bool.eq_iff_iff, findingLe_iff, findingLe_iff]
  simp [Match.shift, Spot.shift]

theorem Catalog.noteLe_shift (a b : Note) :
    c.noteLe (a.shift n l) (b.shift n l) = c.noteLe a b := by
  rw [Bool.eq_iff_iff, noteLe_iff, noteLe_iff]
  simp [Note.shift, Spot.shift]

end Shift

/-! ## What is found in the parts -/

theorem Dispatcher.run_append (d : Dispatcher) (fs gs : List Fragment) :
    d.run (fs ++ gs) = (d.run fs).append (d.run gs) := by
  rw [run, List.map_append, MatchSet.join, List.flatMap_append, List.flatMap_append]
  rfl

theorem file_of_mem_fragments {name text : String} {f : Fragment}
    (hf : f ∈ (scan name text).fragments) : f.file = name := by
  obtain ⟨cut, hcut, hfragment⟩ := List.mem_filterMap.1 hf
  obtain ⟨g, hg, hcase⟩ := Source.fragment?_of_mem_cuts name hcut
  obtain rfl : g = f := Option.some.inj (hg.symm.trans hfragment)
  rcases hcase with ⟨k, t, -, -, rfl⟩ | ⟨_, _, _, _, -, -, -, -, -, hfile⟩
  · rfl
  · exact hfile

/-- What the standard matchers that are not disabled find in a text. -/
def matched (name text : String) (disabled : List String) : MatchSet :=
  (Dispatcher.standard disabled).run (scan name text).fragments

section Matched

variable {name text : String} {disabled : List String}

theorem file_of_mem_found {m : Match} (hm : m ∈ (matched name text disabled).found) :
    m.file = name := by
  obtain ⟨f, hf, hfile⟩ := Dispatcher.file_of_mem_run (fun _ => Dispatcher.mem_standardExaminers) hm
  exact hfile.trans (file_of_mem_fragments hf)

theorem TwinSpots.offset_lt {s s' : Spot} (h : TwinSpots text text s s') :
    0 ≤ s.offset ∧ s.offset < text.length := by
  obtain ⟨t, -, ⟨j, ht, -⟩, hoffset, -⟩ := h
  have hmem := List.mem_of_getElem? ht
  have hlt := start_lt_stop hmem
  have hle := stop_le_length hmem
  rw [String.length_toList] at hle
  omega

theorem matched_like (name text : String) (disabled : List String) :
    MatchSet.Like (TwinSpots text text) (matched name text disabled)
      (matched name text disabled) :=
  Dispatcher.run_like disabled (fragments_like rfl name name)

theorem offset_of_mem_found {m : Match} (hm : m ∈ (matched name text disabled).found) :
    0 ≤ m.offset ∧ m.offset < text.length := by
  obtain ⟨m', -, hlike⟩ := exists_left (matched_like name text disabled).found hm
  exact hlike.spot.offset_lt

theorem offset_of_mem_notes {m : Note} (hm : m ∈ (matched name text disabled).notes) :
    0 ≤ m.offset ∧ m.offset < text.length := by
  obtain ⟨m', -, hlike⟩ := exists_left (matched_like name text disabled).notes hm
  exact hlike.spot.offset_lt

end Matched

theorem eq_map_of_forall₂ {α β : Type} {R : α → β → Prop} {f : α → β} {xs : List α} {ys : List β}
    (h : List.Forall₂ R xs ys) (hf : ∀ x ∈ xs, ∀ y ∈ ys, R x y → y = f x) : ys = xs.map f := by
  induction h with
  | nil => rfl
  | cons hxy _ ih =>
      rw [List.map_cons, hf _ List.mem_cons_self _ List.mem_cons_self hxy, ← ih]
      intro x hx y hy
      exact hf x (List.mem_cons_of_mem _ hx) y (List.mem_cons_of_mem _ hy)

section Parts

variable {a b : String} (ha : CompleteText a) (hb : FollowingText b) (name : String)
  (disabled : List String)
include ha

theorem diagnostics_append (b : String) : (scan name (a ++ b)).diagnostics =
    (scan name b).diagnostics.map (Diagnostic.shift (lineEnds a)) := by
  have htokens : tokenDiagnostics (a ++ b).toList =
      (tokenDiagnostics b.toList).map (Diagnostic.shift (lineEnds a)) := by
    rw [String.toList_append]
    exact tokenDiagnostics_append ha.ends ha.faults_eq_nil b.toList
  have hwords : (Source.ofText name (a ++ b)).words.toList =
      (Source.ofText name a).words.toList ++
        (Source.ofText name b).words.toList.map (Token.shift a.length (lineEnds a)) := by
    rw [ha.words_append, Array.toList_append, Array.toList_map]
  show tokenDiagnostics _ ++ bracketDiagnostics _ =
    (tokenDiagnostics _ ++ bracketDiagnostics _).map _
  rw [htokens, hwords, bracketDiagnostics_append (ha.bracketDiagnostics_eq_nil name),
    List.map_append]

include hb

theorem matched_append : matched name (a ++ b) disabled =
    ⟨(matched name a disabled).found ++
        (matched name b disabled).found.map (Match.shift a.length (lineEnds a)),
      (matched name a disabled).notes ++
        (matched name b disabled).notes.map (Note.shift a.length (lineEnds a))⟩ := by
  obtain ⟨gs, hfragments, hmoved⟩ := ha.fragments_append name hb
  have hlike := Dispatcher.run_like disabled (hmoved.imp fun f g hfg => hfg.like)
  have hfile : ∀ m ∈ ((Dispatcher.standard disabled).run gs).found, m.file = name := by
    intro m hm
    obtain ⟨f, hf, hfile⟩ :=
      Dispatcher.file_of_mem_run (fun _ => Dispatcher.mem_standardExaminers) hm
    have hmem : f ∈ (scan name (a ++ b)).fragments := by
      rw [hfragments]
      exact List.mem_append_right _ hf
    exact hfile.trans (file_of_mem_fragments hmem)
  have hfound : ((Dispatcher.standard disabled).run gs).found =
      (matched name b disabled).found.map (Match.shift a.length (lineEnds a)) := by
    refine eq_map_of_forall₂ hlike.found ?_
    intro m hm m' hm' h
    exact Match.eq_shift h ((file_of_mem_found hm).trans (hfile m' hm').symm)
  have hnotes : ((Dispatcher.standard disabled).run gs).notes =
      (matched name b disabled).notes.map (Note.shift a.length (lineEnds a)) :=
    eq_map_of_forall₂ hlike.notes fun m _ m' _ h => Note.eq_shift h
  rw [matched, hfragments, Dispatcher.run_append, MatchSet.append, hfound, hnotes]
  rfl

/-- The findings in both texts are sorted part by part. -/
theorem found_mergeSort_append :
    (matched name (a ++ b) disabled).found.mergeSort standardCatalog.findingLe =
      (matched name a disabled).found.mergeSort standardCatalog.findingLe ++
        ((matched name b disabled).found.mergeSort standardCatalog.findingLe).map
          (Match.shift a.length (lineEnds a)) := by
  rw [matched_append ha hb]
  refine mergeSort_append_map Catalog.findingLe_trans Catalog.findingLe_total
    Catalog.findingLe_shift ?_
  intro m hm k hk
  have hlt := (offset_of_mem_found hm).2
  have hle := (offset_of_mem_found hk).1
  refine Catalog.findingLe_iff.2 (Or.inl ?_)
  show m.offset < k.offset + a.length
  omega

/-- The notes on both texts are sorted part by part. -/
theorem notes_mergeSort_append :
    (matched name (a ++ b) disabled).notes.mergeSort standardCatalog.noteLe =
      (matched name a disabled).notes.mergeSort standardCatalog.noteLe ++
        ((matched name b disabled).notes.mergeSort standardCatalog.noteLe).map
          (Note.shift a.length (lineEnds a)) := by
  rw [matched_append ha hb]
  refine mergeSort_append_map Catalog.noteLe_trans Catalog.noteLe_total Catalog.noteLe_shift ?_
  intro m hm k hk
  have hlt := (offset_of_mem_notes hm).2
  have hle := (offset_of_mem_notes hk).1
  refine Catalog.noteLe_iff.2 (Or.inl ?_)
  show m.offset < k.offset + a.length
  omega

/-- Complete declarations and a text behind them are classified part by part.  The findings in
both are those in the declarations, followed by those in the other text, moved on by the
characters and the lines of the declarations; so are the notes and the remarks.  Disabled ids
that nobody knows are refused, whatever the text. -/
theorem classifyText_append (floor : Int) :
    ((∀ id ∈ disabled, standardCatalog.contains id = true) →
      ∃ ra rb r, classifyText name a standardCatalog floor disabled = .ok ra ∧
        classifyText name b standardCatalog floor disabled = .ok rb ∧
        classifyText name (a ++ b) standardCatalog floor disabled = .ok r ∧
        r.classification.findings = ra.classification.findings ++
          rb.classification.findings.map (Match.shift a.length (lineEnds a)) ∧
        r.notes = ra.notes ++ rb.notes.map (Note.shift a.length (lineEnds a)) ∧
        r.diagnostics = ra.diagnostics ++ rb.diagnostics.map (Diagnostic.shift (lineEnds a))) ∧
    (¬ (∀ id ∈ disabled, standardCatalog.contains id = true) →
      ∃ id ∈ disabled, ∀ text, classifyText name text standardCatalog floor disabled =
        .error (.unknownFeature id)) := by
  constructor
  · intro hdisabled
    refine ⟨_, _, _, classifyText_standard hdisabled name a floor,
      classifyText_standard hdisabled name b floor,
      classifyText_standard hdisabled name (a ++ b) floor, ?_, ?_, ?_⟩
    · exact found_mergeSort_append ha hb name disabled
    · exact notes_mergeSort_append ha hb name disabled
    · show (scan name (a ++ b)).diagnostics = (scan name a).diagnostics ++ _
      rw [ha.intact name, List.nil_append]
      exact diagnostics_append ha name b
  · intro hunknown
    obtain ⟨id, hid, hrefused⟩ := classifyText_refused hunknown
    exact ⟨id, hid, fun text => hrefused name text floor⟩

end Parts

/-- A number with a suffix in both parts; behind the declaration a bracket is left over. -/
theorem classifyText_append_suffixes :
    CompleteText "#define N 1\nauto n = 1uz;\n" ∧ FollowingText "auto m = 2z; )\n" ∧
      (∀ id ∈ ["elifdef-directive"], standardCatalog.contains id = true) ∧
      ∃ ra rb r,
        classifyText "f" "#define N 1\nauto n = 1uz;\n" standardCatalog 20
          ["elifdef-directive"] = .ok ra ∧
        classifyText "f" "auto m = 2z; )\n" standardCatalog 20 ["elifdef-directive"] = .ok rb ∧
        classifyText "f" ("#define N 1\nauto n = 1uz;\n" ++ "auto m = 2z; )\n") standardCatalog 20
          ["elifdef-directive"] = .ok r ∧
        r.classification.findings =
          ra.classification.findings ++ rb.classification.findings.map (Match.shift 26 2) ∧
        r.notes = ra.notes ++ rb.notes.map (Note.shift 26 2) ∧
        r.diagnostics = ra.diagnostics ++ rb.diagnostics.map (Diagnostic.shift 2) := by
  have ha : CompleteText "#define N 1\nauto n = 1uz;\n" := by
    refine ⟨?_, ?_, by decide +kernel, ?_⟩
    · intro name
      show (scan "" "#define N 1\nauto n = 1uz;\n").diagnostics = []
      decide +kernel
    · exact ⟨⟨⟨.word, "auto"⟩, ⟨12, 2, 1⟩, 16⟩, by decide +kernel, by decide⟩
    · exact ⟨⟨⟨.punctuator, ";"⟩, ⟨24, 2, 13⟩, 25⟩, by decide +kernel, by decide,
        by decide +kernel, by decide +kernel⟩
  have hb : FollowingText "auto m = 2z; )\n" := by
    refine ⟨?_, by decide +kernel⟩
    intro t ht
    have hfirst : (tokens "auto m = 2z; )\n".toList).find? (fun t => decide (t.kind ≠ .directive))
        = some ⟨⟨.word, "auto"⟩, ⟨0, 1, 1⟩, 4⟩ := by decide +kernel
    rw [hfirst] at ht
    cases ht
    decide
  have hdisabled : ∀ id ∈ ["elifdef-directive"], standardCatalog.contains id = true := by
    decide +kernel
  have hlength : "#define N 1\nauto n = 1uz;\n".length = 26 := by decide +kernel
  have hlines : lineEnds "#define N 1\nauto n = 1uz;\n" = 2 := by decide +kernel
  have hparts := (classifyText_append ha hb "f" ["elifdef-directive"] 20).1 hdisabled
  rw [hlength, hlines] at hparts
  exact ⟨ha, hb, hdisabled, hparts⟩

end CxxFloor
