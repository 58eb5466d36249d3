/-
# Findings quote the source

Whatever a text is classified with, each finding and each note of its report
comes from a fragment of the text and stands at a place of it: offset, line and
column are those of one position (`Spot.StandsIn`).  Unless the fragment is a
preprocessor line, the text shown is read off the source from that place on,
from the start of one token of the fragment to the end of another
(`Spot.Quotes`).

A window shows the source between two of its tokens, whether it is shown as a
whole or as a span of it (`Source.Window.spot_quotes`); that spans have their
ends in order is what the matchers owe to it
(`span_in_of_mem_standardMatchers`).  A preprocessor line is shown as the
directive is spelled, so it need not read like the source.
-/
import CxxFloor.Proofs.Feature.Slots
import CxxFloor.Proofs.Feature.Spans
import CxxFloor.Proofs.Safety
import CxxFloor.Proofs.Text.Lines

namespace CxxFloor

/-! ## Spots -/

namespace Spot

/-- Offset, line and column of the spot are those of one place of the text. -/
def StandsIn (cs : List Char) (s : Spot) : Prop :=
  ∃ n, n ≤ cs.length ∧ s.offset = n ∧ s.line = Text.lineAt cs n ∧ s.column = Text.columnAt cs n

/-- The spot shows what the text reads from the start of one token of the fragment to the end of
one. -/
structure Quotes (cs : List Char) (f : Fragment) (s : Spot) : Prop where
  text_ne : s.text ≠ ""
  text_eq : s.text = Text.slice cs s.offset.toNat (s.offset + s.text.length).toNat
  starts : ∃ t ∈ f.tokens, t ∈ tokens cs ∧ s.offset = t.start.offset
  ends : ∃ t ∈ f.tokens, t ∈ tokens cs ∧ s.offset + s.text.length = t.stop

end Spot

theorem Text.length_slice {cs : List Char} {start stop : Nat} (h : stop ≤ cs.length) :
    (Text.slice cs start stop).length = stop - start := by
  rw [Text.slice, String.length_ofList, List.length_take, List.length_drop]
  omega

/-- A slice of a slice is a slice. -/
theorem Text.slice_slice {cs : List Char} {start stop start' stop' : Nat} (h : start ≤ start')
    (h' : stop' ≤ stop) :
    Text.slice (Text.slice cs start stop).toList (start' - start) (stop' - start)
      = Text.slice cs start' stop' := by
  unfold Text.slice
  rw [String.toList_ofList, List.drop_take, List.drop_drop, List.take_take]
  congr 2
  · omega
  · congr 1
    omega

theorem start_eq_placeAt {cs : List Char} {t : Token} (h : t ∈ tokens cs) :
    t.start = Text.placeAt cs t.start.offset := by
  obtain ⟨before, raw, behind, rfl, hstart, -⟩ := split_of_mem_tokens h
  have hplace := Text.after_prefix before (raw ++ behind)
  rw [← hstart, ← List.append_assoc] at hplace
  have hoffset : t.start.offset = before.length := congrArg Position.offset hplace
  rw [hoffset]
  exact hplace

theorem Spot.standsIn_start {cs : List Char} {t : Token} (h : t ∈ tokens cs) (text : String) :
    StandsIn cs ⟨t.start.line, t.start.column, t.start.offset, text⟩ := by
  have hplace := start_eq_placeAt h
  have hlt := start_lt_stop h
  have hle := stop_le_length h
  refine ⟨t.start.offset, by omega, rfl, ?_, ?_⟩
  · exact congrArg (fun p : Position => (p.line : Int)) hplace
  · exact congrArg (fun p : Position => (p.column : Int)) hplace

/-- What the source reads between two tokens of a fragment. -/
theorem Spot.quotes_between {cs : List Char} {f : Fragment} {t u : Token} (ht : t ∈ tokens cs)
    (hu : u ∈ tokens cs) (htf : t ∈ f.tokens) (huf : u ∈ f.tokens)
    (hlt : t.start.offset < u.stop) :
    Quotes cs f ⟨t.start.line, t.start.column, t.start.offset,
      Text.slice cs t.start.offset u.stop⟩ := by
  have hlength : (Text.slice cs t.start.offset u.stop).length = u.stop - t.start.offset :=
    Text.length_slice (stop_le_length hu)
  have hend : (t.start.offset : Int) + (Text.slice cs t.start.offset u.stop).length = u.stop := by
    rw [hlength]
    omega
  refine ⟨fun hempty => ?_, ?_, ⟨t, htf, ht, rfl⟩, ⟨u, huf, hu, hend⟩⟩
  · dsimp only at hempty
    rw [hempty] at hlength
    have : "".length = 0 := rfl
    omega
  · dsimp only
    rw [hend, Int.toNat_natCast, Int.toNat_natCast]

/-! ## Fragments -/

namespace Source

variable {name text : String} {f : Fragment} {first last : Nat}

/-- The tokens of a source do not overlap. -/
theorem words_ordered {i j : Nat} {t u : Token} (hij : i ≤ j)
    (ht : (Source.ofText name text).words[i]? = some t)
    (hu : (Source.ofText name text).words[j]? = some u) :
    t.start.offset ≤ u.start.offset ∧ t.stop ≤ u.stop := by
  have hustop := start_lt_stop (mem_tokens_of_words hu).1
  rcases Nat.eq_or_lt_of_le hij with rfl | hlt
  · obtain rfl := Option.some.inj (ht.symm.trans hu)
    exact ⟨Nat.le_refl _, Nat.le_refl _⟩
  · have hapart := words_apart hlt ht hu
    exact ⟨Nat.le_of_lt (words_start_lt hlt ht hu), by omega⟩

theorem Window.ends {source : Source} (h : source.Window f first last) :
    ∃ t ∈ f.tokens, ∃ u ∈ f.tokens, source.words[first]? = some t ∧
      source.words[last]? = some u ∧ f.start = t.start ∧ f.stop = u.stop := by
  obtain ⟨t, ht, hstart⟩ := Option.map_eq_some_iff.1 h.start
  obtain ⟨u, hu, hstop⟩ := Option.map_eq_some_iff.1 h.stop
  have htf := h.mem_tokens_iff.2 ⟨first, Nat.le_refl _, h.first_le, ht⟩
  have huf := h.mem_tokens_iff.2 ⟨last, h.first_le, Nat.le_refl _, hu⟩
  exact ⟨t, htf, u, huf, ht, hu, hstart.symm, hstop.symm⟩

theorem Window.whole_quotes (h : (Source.ofText name text).Window f first last) :
    f.whole.StandsIn text.toList ∧ f.whole.Quotes text.toList f := by
  obtain ⟨t, htf, u, huf, ht, hu, hstart, hstop⟩ := h.ends
  have htext := h.text
  unfold Fragment.whole
  rw [htext, hstart, hstop]
  have htmem := (mem_tokens_of_words ht).1
  have humem := (mem_tokens_of_words hu).1
  refine ⟨Spot.standsIn_start htmem _, Spot.quotes_between htmem humem htf huf ?_⟩
  have hordered := (words_ordered h.first_le ht hu).1
  have := start_lt_stop humem
  omega

theorem Window.spot_quotes (h : (Source.ofText name text).Window f first last)
    {span? : Option Span} (hspan : ∀ s, span? = some s → s.In f.view.bracketed) :
    (f.spot span?).StandsIn text.toList ∧ (f.spot span?).Quotes text.toList f := by
  cases span? with
  | none => exact h.whole_quotes
  | some s =>
      obtain ⟨hle, hlt⟩ := hspan s rfl
      have hsize : f.view.bracketed.size = f.tokens.size := Array.size_map
      rw [hsize] at hlt
      obtain ⟨t, ht⟩ : ∃ t, f.tokens[s.first]? = some t :=
        ⟨_, Array.getElem?_eq_getElem (Nat.lt_of_le_of_lt hle hlt)⟩
      obtain ⟨u, hu⟩ : ∃ u, f.tokens[s.last]? = some u := ⟨_, Array.getElem?_eq_getElem hlt⟩
      obtain ⟨htwords, -⟩ := h.getElem?_tokens ht
      obtain ⟨huwords, hulast⟩ := h.getElem?_tokens hu
      obtain ⟨t₀, -, u₀, -, ht₀, hu₀, hstart, hstop⟩ := h.ends
      have htmem := (mem_tokens_of_words htwords).1
      have humem := (mem_tokens_of_words huwords).1
      -- the span lies between the ends of the window
      have hbefore := (words_ordered (Nat.le_add_right first s.first) ht₀ htwords).1
      have hinside := (words_ordered (Nat.add_le_add_left hle first) htwords huwords).1
      have hbehind := (words_ordered hulast huwords hu₀).2
      have hshown : f.textBetween t.start.offset u.stop
          = Text.slice text.toList t.start.offset u.stop := by
        rw [Fragment.textBetween, h.text, hstart, hstop]
        exact Text.slice_slice hbefore hbehind
      have hspot : f.spot (some s) = ⟨t.start.line, t.start.column, t.start.offset,
          Text.slice text.toList t.start.offset u.stop⟩ := by
        rw [Fragment.spot, ht, hu, ← hshown]
      rw [hspot]
      refine ⟨Spot.standsIn_start htmem _, Spot.quotes_between htmem humem
        (Array.mem_of_getElem? ht) (Array.mem_of_getElem? hu) ?_⟩
      have := start_lt_stop humem
      omega

/-- A preprocessor line is shown at the place of its token. -/
theorem directiveFragment_standsIn {t : Token} (ht : t ∈ (Source.ofText name text).directives)
    {span? : Option Span} (hspan : ∀ s, span? = some s → s.In f.view.bracketed)
    (hf : f = (Source.ofText name text).directiveFragment t) :
    (f.spot span?).StandsIn text.toList := by
  have hmem : t ∈ tokens text.toList := by
    have := Array.mem_def.1 ht
    rw [directives_toList] at this
    exact (List.mem_filter.1 this).1
  have hsize : f.view.bracketed.size = f.tokens.size := Array.size_map
  subst hf
  cases span? with
  | none => exact Spot.standsIn_start hmem _
  | some s =>
      -- the line is the only token there is
      obtain ⟨hle, hlt⟩ := hspan s rfl
      have hlt : s.last < 1 := Nat.lt_of_lt_of_eq hlt hsize
      obtain ⟨first, last⟩ := s
      obtain rfl : last = 0 := Nat.lt_one_iff.1 hlt
      obtain rfl : first = 0 := Nat.le_zero.1 hle
      exact Spot.standsIn_start hmem _

end Source

/-! ## Findings and notes -/

/-- Where a fragment may be shown: where a standard matcher points, or as a whole. -/
def Fragment.ShownAt (f : Fragment) (s : Spot) : Prop :=
  ∃ span?, s = f.spot span? ∧
    (span? = none ∨ ∃ m ∈ standardMatchers, (m.examine f.view).span? = span?)

namespace Dispatcher

variable {d : Dispatcher} {f : Fragment}

section Shown

variable (hd : ∀ e ∈ d.matchers, e ∈ standardExaminers)
include hd

theorem shownAt_of_mem_found {r : Match} (h : r ∈ (d.examine f).found) : f.ShownAt r.toSpot := by
  obtain ⟨e, he, hr⟩ := exists_examiner_of_mem_found h
  obtain ⟨m, hm, rfl⟩ := exists_matcher (hd e he)
  obtain ⟨span, hspan, rfl⟩ := of_match? hr
  exact ⟨span, rfl, .inr ⟨m, hm, by rw [hspan]; rfl⟩⟩

theorem shownAt_of_mem_notes {n : Note} (h : n ∈ (d.examine f).notes) : f.ShownAt n.toSpot := by
  rcases List.mem_append.1 h with h | h
  · obtain ⟨o, ho, hn⟩ := List.mem_filterMap.1 h
    obtain ⟨e, he, rfl⟩ := List.mem_map.1 ho
    obtain ⟨m, hm, rfl⟩ := exists_matcher (hd e (List.mem_filter.1 he).1)
    obtain ⟨span, reason, candidates, hspan, rfl⟩ := of_note? hn
    exact ⟨span, rfl, .inr ⟨m, hm, by rw [hspan]; rfl⟩⟩
  · obtain ⟨slot, -, rfl⟩ := List.mem_map.1 h
    exact ⟨none, rfl, .inl rfl⟩

end Shown

end Dispatcher

/-- What standard matchers show of a fragment of a text stands in the text, and quotes it unless
the fragment is a preprocessor line. -/
theorem Fragment.ShownAt.quotes {name text : String} {f : Fragment}
    (hf : f ∈ (scan name text).fragments) {s : Spot} (h : f.ShownAt s) :
    s.StandsIn text.toList ∧ (f.kind ≠ .directive → s.Quotes text.toList f) := by
  obtain ⟨span?, rfl, hspan?⟩ := h
  have hspan : 0 < f.tokens.size → ∀ s, span? = some s → s.In f.view.bracketed := by
    rintro hsize s rfl
    rcases hspan? with hnone | ⟨m, hm, hspan⟩
    · cases hnone
    · refine span_in_of_mem_standardMatchers hm ?_ hspan
      show 0 < (f.tokens.map _).size
      rwa [Array.size_map]
  obtain ⟨hdirective, hwindow⟩ := fragment_wellFormed hf
  by_cases hkind : f.kind = .directive
  · obtain ⟨t, ht, heq⟩ := hdirective hkind
    have hsize : 0 < f.tokens.size := by
      rw [heq]
      exact Nat.one_pos
    exact ⟨Source.directiveFragment_standsIn ht (hspan hsize) heq, fun hne => absurd hkind hne⟩
  · obtain ⟨first, last, hwindow, -⟩ := hwindow hkind
    have hsize : 0 < f.tokens.size := by
      rw [hwindow.size_tokens]
      have := hwindow.first_le
      omega
    obtain ⟨hstands, hquotes⟩ := hwindow.spot_quotes (hspan hsize)
    exact ⟨hstands, fun _ => hquotes⟩

/-- Every finding and every note of a report comes from a fragment of the text.  Its offset, line
and column are those of one place, and unless the fragment is a preprocessor line, its text is
what the source reads there, from the start of a token of the fragment to the end of one. -/
theorem findings_quote_source {catalog : Catalog} {disabled : List String} {name text : String}
    {floor : Int} {report : FileReport}
    (h : classifyText name text catalog floor disabled = .ok report) :
    ∃ d, Dispatcher.make catalog.orStandard standardMatchers disabled = .ok d ∧
      (∀ r ∈ report.classification.findings, ∃ f ∈ (scan name text).fragments,
        r ∈ (d.examine f).found ∧ r.toSpot.StandsIn text.toList ∧
          (f.kind ≠ .directive → r.toSpot.Quotes text.toList f)) ∧
      ∀ n ∈ report.notes, ∃ f ∈ (scan name text).fragments,
        n ∈ (d.examine f).notes ∧ n.toSpot.StandsIn text.toList ∧
          (f.kind ≠ .directive → n.toSpot.Quotes text.toList f) := by
  obtain ⟨d, hmake, rfl⟩ := exists_dispatcher_of_classifyText h
  have hd := Dispatcher.of_make hmake
  refine ⟨d, hmake, fun r hr => ?_, fun n hn => ?_⟩
  · obtain ⟨f, hf, hr⟩ := Dispatcher.mem_found_run.1 (List.mem_mergeSort.1 hr)
    exact ⟨f, hf, hr, (Dispatcher.shownAt_of_mem_found hd hr).quotes hf⟩
  · obtain ⟨f, hf, hn⟩ := Dispatcher.mem_notes_run.1 (List.mem_mergeSort.1 hn)
    exact ⟨f, hf, hn, (Dispatcher.shownAt_of_mem_notes hd hn).quotes hf⟩

/-- A static operator on the second line, shown from its specifier to its name. -/
theorem findings_quote_source_operator :
    ∃ report, classifyText "a" "\n static int operator[]();" standardCatalog 20 [] = .ok report ∧
      ⟨⟨2, 2, 2, "static int operator[]"⟩, "static-subscript-operator", "a"⟩
        ∈ report.classification.findings ∧
      ∀ r ∈ report.classification.findings,
        ∃ f ∈ (scan "a" "\n static int operator[]();").fragments,
          r.toSpot.StandsIn "\n static int operator[]();".toList ∧
            (f.kind ≠ .directive → r.toSpot.Quotes "\n static int operator[]();".toList f) := by
  have hreport : classifyText "a" "\n static int operator[]();" standardCatalog 20 []
      = .ok (standardReport "a" "\n static int operator[]();" 20 []) :=
    classifyText_standard (by simp) _ _ _
  obtain ⟨d, -, hfindings, -⟩ := findings_quote_source hreport
  refine ⟨_, hreport, ?_, fun r hr => ?_⟩
  · have hsheet : Sheet.ofLexemes ((tokens "\n static int operator[]();".toList).map (·.toLexeme))
        = ⟨[⟨.word, "static"⟩, ⟨.word, "int"⟩, ⟨.word, "operator"⟩, ⟨.punctuator, "["⟩,
          ⟨.punctuator, "]"⟩, ⟨.punctuator, "("⟩, ⟨.punctuator, ")"⟩, ⟨.punctuator, ";"⟩], []⟩ := by
      decide +kernel
    have hcut : .span .operatorDefinition 0 6 { atStatementStart := true }
        ∈ cutsOfText "\n static int operator[]();" := by
      unfold cutsOfText cutsOf
      rw [hsheet, interleave, stepsFrom_eq_stepsWithin (n := 8)]
      · decide +kernel
      · decide
    obtain ⟨f, hf, hkind, hmatch⟩ : ∃ f ∈ (Source.ofText "a" "\n static int operator[]();").fragment?
        (.span .operatorDefinition 0 6 { atStatementStart := true }), f.kind = .operatorDefinition ∧
        Dispatcher.match? (staticSubscript.outcome f)
          = some ⟨⟨2, 2, 2, "static int operator[]"⟩, "static-subscript-operator", "a"⟩ := by
      decide +kernel
    have hscan : f ∈ (scan "a" "\n static int operator[]();").fragments :=
      List.mem_filterMap.2 ⟨_, hcut, hf⟩
    have hshown : staticSubscript.examiner ∈ (Dispatcher.standard []).matchersFor f.kind :=
      Dispatcher.mem_matchersFor_standard (by simp [standardMatchers]) (by simp)
        (by rw [hkind]; decide)
    refine List.mem_mergeSort.2 (Dispatcher.mem_found_run.2 ⟨f, hscan, ?_⟩)
    rw [Dispatcher.examine_standard]
    exact List.mem_filterMap.2 ⟨_, List.mem_map_of_mem hshown, hmatch⟩
  · obtain ⟨f, hf, -, hquotes⟩ := hfindings r hr
    exact ⟨f, hf, hquotes⟩

end CxxFloor
