/-
# Fragments are windows of the file

Every cut of a file names tokens that the file has (`of_mem_cutsOf`), so none
is lost when the fragments are located (`Source.fragment?_of_mem_cuts`).  A fragment is
either a preprocessor line or a run of the other tokens with the place, the
text and the neighbours of that run (`Window`).
-/
import CxxFloor.Fragment.Scan
import CxxFloor.Proofs.Scope.Range
import CxxFloor.Proofs.Token.Places

namespace CxxFloor

/-! ## Sheets -/

theorem Sheet.lexemes_sortFrom (before : Nat) (ts : List Lexeme) :
    (sortFrom before ts).lexemes = ts.filter fun t => decide (t.kind ≠ .directive) := by
  induction ts generalizing before with
  | nil => rfl
  | cons t ts ih =>
      unfold sortFrom
      by_cases h : t.kind = .directive
      · simp [h, ih]
      · simp [h, ih]

theorem Sheet.length_directives_sortFrom (before : Nat) (ts : List Lexeme) :
    (sortFrom before ts).directives.length
      = (ts.filter fun t => decide (t.kind = .directive)).length := by
  induction ts generalizing before with
  | nil => rfl
  | cons t ts ih =>
      unfold sortFrom
      by_cases h : t.kind = .directive
      · simp [h, ih]
      · simp [h, ih]

/-! ## Cuts -/

/-- A cut of a file is that of a preprocessor line or was made by a step. -/
theorem mem_interleave {cut : Cut} {number : Nat} {directives : List Nat}
    {steps : List (Nat × List Cut)} (h : cut ∈ interleave number directives steps) :
    (∃ k, number ≤ k ∧ k < number + directives.length ∧ cut = .directive k) ∨
      ∃ e ∈ steps, cut ∈ e.2 := by
  fun_induction interleave number directives steps with
  | case1 number steps =>
      obtain ⟨e, he, hcut⟩ := List.mem_flatMap.1 h
      exact .inr ⟨e, he, hcut⟩
  | case2 number directives =>
      obtain ⟨k, hk, rfl⟩ := List.mem_map.1 h
      obtain ⟨hle, hlt⟩ := List.mem_range'_1.1 hk
      exact .inl ⟨k, hle, hlt, rfl⟩
  | case3 number before directives i cuts steps hle ih =>
      simp only [List.length_cons]
      rcases List.mem_cons.1 h with rfl | h
      · exact .inl ⟨number, Nat.le_refl _, by omega, rfl⟩
      · rcases ih h with ⟨k, hle', hk, rfl⟩ | hsteps
        · exact .inl ⟨k, by omega, by omega, rfl⟩
        · exact .inr hsteps
  | case4 number before directives i cuts steps hle ih =>
      rcases List.mem_append.1 h with h | h
      · exact .inr ⟨(i, cuts), List.mem_cons_self, h⟩
      · rcases ih h with hdirective | ⟨e, he, hcut⟩
        · exact .inl hdirective
        · exact .inr ⟨e, List.mem_cons_of_mem _ he, hcut⟩

/-- A kind of cut that no preprocessor line has is made by the steps alone, in their order. -/
theorem filter_interleave {p : Cut → Bool} (hp : ∀ k, p (.directive k) = false) {number : Nat}
    {directives : List Nat} {steps : List (Nat × List Cut)} :
    (interleave number directives steps).filter p = (steps.flatMap (·.2)).filter p := by
  fun_induction interleave number directives steps with
  | case1 => rfl
  | case2 number directives =>
      refine List.filter_eq_nil_iff.2 fun cut hcut => ?_
      obtain ⟨k, -, rfl⟩ := List.mem_map.1 hcut
      simp [hp]
  | case3 number before directives i cuts steps hle ih =>
      rw [List.filter_cons_of_neg (by simp [hp]), ih]
  | case4 number before directives i cuts steps hle ih =>
      rw [List.flatMap_cons, List.filter_append, List.filter_append, ih]

/-- The kind of the fragment that a cut becomes. -/
def Cut.kind : Cut → FragmentKind
  | directive _ => .directive
  | span kind _ _ _ => kind

def cutsOfText (text : String) : List Cut := cutsOf ((tokens text.toList).map (·.toLexeme))

/-- The fragments of a text without preprocessor lines, in a form that can be evaluated. -/
theorem scan_fragments_eq {name text : String}
    (hplain : (Sheet.ofLexemes ((tokens text.toList).map (·.toLexeme))).directives = []) :
    (scan name text).fragments =
      ((stepsWithin (.ofText text) (Bracketed.ofText text).size 0 {}).flatMap (·.2)).filterMap
        (Source.ofText name text).fragment? := by
  have hsteps : stepsFrom (.ofText text) 0 {} =
      stepsWithin (.ofText text) (Bracketed.ofText text).size 0 {} :=
    stepsFrom_eq_stepsWithin (Nat.le_of_eq (Nat.zero_add _).symm)
  rw [← hsteps]
  show (cutsOf _).filterMap _ = _
  rw [cutsOf, hplain, interleave]
  rfl

/-- A cut names a preprocessor line of the file, or was made by a step of the walk. -/
theorem of_mem_cutsOf {ts : List Lexeme} {cut : Cut} (h : cut ∈ cutsOf ts) :
    (∃ k, k < (ts.filter fun t => decide (t.kind = .directive)).length ∧ cut = .directive k) ∨
      ∃ kind first last context, cut = .span kind first last context ∧
        ∃ i s, i < (Sheet.ofLexemes ts).bracketed.size ∧
          Boundary (Sheet.ofLexemes ts).bracketed i s ∧
          StepCut (Sheet.ofLexemes ts).bracketed s.head i kind first last := by
  unfold cutsOf at h
  rcases mem_interleave h with ⟨k, -, hk, rfl⟩ | ⟨e, he, hcut⟩
  · refine .inl ⟨k, ?_, rfl⟩
    rwa [Nat.zero_add, Sheet.ofLexemes, Sheet.length_directives_sortFrom] at hk
  · obtain ⟨s, hi, hs, hcuts⟩ := stepCut_of_mem_stepsFrom he
    obtain ⟨kind, first, last, context, rfl, hstep⟩ := hcuts cut hcut
    exact .inr ⟨kind, first, last, context, rfl, e.1, s, hi, hs, hstep⟩

/-! ## Sources -/

namespace Source

variable {name text : String}

theorem words_toList : (Source.ofText name text).words.toList
    = (tokens text.toList).filter fun t => decide (t.kind ≠ .directive) := rfl

theorem directives_toList : (Source.ofText name text).directives.toList
    = (tokens text.toList).filter fun t => decide (t.kind = .directive) := rfl

theorem words_map_toLexeme (name text : String) :
    (Source.ofText name text).words.map (·.toLexeme) = (Bracketed.ofText text).lexemes := by
  apply Array.toList_inj.1
  rw [Array.toList_map, words_toList]
  show _ = (Sheet.sortFrom 0 _).lexemes.toArray.toList
  rw [Sheet.lexemes_sortFrom, List.filter_map]
  rfl

theorem words_sorted (name text : String) : (Source.ofText name text).words.toList.Pairwise
    fun t u => t.stop ≤ u.start.offset := by
  rw [words_toList]
  exact (tokens_sorted _).filter _

theorem size_words (name text : String) :
    (Source.ofText name text).words.size = (Bracketed.ofText text).size := by
  unfold Bracketed.size
  rw [← words_map_toLexeme name text, Array.size_map]

theorem size_directives (name text : String) : (Source.ofText name text).directives.size
    = (((tokens text.toList).map (·.toLexeme)).filter fun t =>
        decide (t.kind = .directive)).length := by
  rw [List.filter_map, List.length_map]
  rfl

theorem mem_tokens_of_words {t : Token} {k : Nat}
    (h : (Source.ofText name text).words[k]? = some t) :
    t ∈ tokens text.toList ∧ t.kind ≠ .directive := by
  have hmem : t ∈ (Source.ofText name text).words.toList :=
    Array.mem_def.1 (Array.mem_of_getElem? h)
  rw [words_toList] at hmem
  simpa using List.mem_filter.1 hmem

theorem words_apart {t u : Token} {i k : Nat} (hik : i < k)
    (hi : (Source.ofText name text).words[i]? = some t)
    (hk : (Source.ofText name text).words[k]? = some u) : t.stop ≤ u.start.offset := by
  have hsorted := words_sorted name text
  rw [← Array.getElem?_toList] at hi hk
  obtain ⟨hi', rfl⟩ := List.getElem?_eq_some_iff.1 hi
  obtain ⟨hk', rfl⟩ := List.getElem?_eq_some_iff.1 hk
  exact List.pairwise_iff_getElem.1 hsorted i k hi' hk' hik

theorem words_start_lt {t u : Token} {i k : Nat} (hik : i < k)
    (hi : (Source.ofText name text).words[i]? = some t)
    (hk : (Source.ofText name text).words[k]? = some u) : t.start.offset < u.start.offset :=
  Nat.lt_of_lt_of_le (start_lt_stop (mem_tokens_of_words hi).1) (words_apart hik hi hk)

/-- No two indices have tokens that start at one place. -/
theorem words_start_inj {t u : Token} {i k : Nat}
    (hi : (Source.ofText name text).words[i]? = some t)
    (hk : (Source.ofText name text).words[k]? = some u) (h : t.start.offset = u.start.offset) :
    i = k := by
  rcases Nat.lt_trichotomy i k with hbefore | heq | hbehind
  · exact absurd h (Nat.ne_of_lt (words_start_lt hbefore hi hk))
  · exact heq
  · exact absurd h.symm (Nat.ne_of_lt (words_start_lt hbehind hk hi))

theorem words_inj {t : Token} {i k : Nat} (hi : (Source.ofText name text).words[i]? = some t)
    (hk : (Source.ofText name text).words[k]? = some t) : i = k :=
  words_start_inj hi hk rfl

/-- The walk over the source cuts the tokens from `first` to `last` for a fragment of a kind. -/
def Cuts (text : String) (kind : FragmentKind) (first last : Nat) : Prop :=
  ∃ i s, i < (Bracketed.ofText text).size ∧ Boundary (Bracketed.ofText text) i s ∧
    StepCut (Bracketed.ofText text) s.head i kind first last

theorem Cuts.range {kind : FragmentKind} {first last : Nat} (h : Cuts text kind first last) :
    first ≤ last ∧ last < (Bracketed.ofText text).size := by
  obtain ⟨i, s, hi, hs, hstep⟩ := h
  exact hstep.range (Bracketed.nested_ofLexemes _) hi

/-- A fragment of a source is the run of its words from `first` to `last`. -/
structure Window (source : Source) (f : Fragment) (first last : Nat) : Prop where
  first_le : first ≤ last
  lt_size : last < source.words.size
  tokens : f.tokens = source.words.extract first (last + 1)
  start : source.words[first]?.map (·.start) = some f.start
  stop : source.words[last]?.map (·.stop) = some f.stop
  text : f.text = Text.slice source.text f.start.offset f.stop
  previous : f.previous = if first = 0 then none else source.words[first - 1]?
  next : f.next = source.words[last + 1]?

theorem Window.size_tokens {source : Source} {f : Fragment} {first last : Nat}
    (h : source.Window f first last) : f.tokens.size = last + 1 - first := by
  have := h.lt_size
  rw [h.tokens, Array.size_extract]
  omega

theorem Window.getElem?_tokens {source : Source} {f : Fragment} {first last k : Nat} {t : Token}
    (h : source.Window f first last) (ht : f.tokens[k]? = some t) :
    source.words[first + k]? = some t ∧ first + k ≤ last := by
  rw [h.tokens, Array.getElem?_extract] at ht
  split at ht
  next hk => exact ⟨ht, by omega⟩
  next => cases ht

theorem Window.mem_tokens_iff {source : Source} {f : Fragment} {first last : Nat} {t : Token}
    (h : source.Window f first last) :
    t ∈ f.tokens ↔ ∃ k, first ≤ k ∧ k ≤ last ∧ source.words[k]? = some t := by
  constructor
  · intro ht
    obtain ⟨k, hk⟩ := Array.mem_iff_getElem?.1 ht
    obtain ⟨hword, hlast⟩ := h.getElem?_tokens hk
    exact ⟨first + k, Nat.le_add_right first k, hlast, hword⟩
  · rintro ⟨k, hfirst, hlast, hk⟩
    refine Array.mem_of_getElem? (i := k - first) ?_
    rw [h.tokens, Array.getElem?_extract, if_pos (by have := h.lt_size; omega),
      Nat.add_sub_cancel' hfirst]
    exact hk

/-- A fragment is one window only. -/
theorem Window.unique {f : Fragment} {first last first' last' : Nat}
    (h : (Source.ofText name text).Window f first last)
    (h' : (Source.ofText name text).Window f first' last') : first = first' ∧ last = last' := by
  obtain ⟨t, ht, hstart⟩ := Option.map_eq_some_iff.1 h.start
  obtain ⟨u, hu, hstart'⟩ := Option.map_eq_some_iff.1 h'.start
  obtain rfl := words_start_inj ht hu (by rw [hstart, hstart'])
  have hsize := h.size_tokens.symm.trans h'.size_tokens
  have := h.first_le
  have := h'.first_le
  exact ⟨rfl, by omega⟩

theorem kind_of_fragment? {source : Source} {cut : Cut} {f : Fragment}
    (h : source.fragment? cut = some f) : f.kind = cut.kind := by
  cases cut with
  | directive k =>
      obtain ⟨t, -, rfl⟩ := Option.map_eq_some_iff.1 h
      rfl
  | span kind first last context =>
      obtain ⟨t, -, h⟩ := Option.bind_eq_some_iff.1 h
      obtain ⟨u, -, h⟩ := Option.bind_eq_some_iff.1 h
      obtain rfl := Option.some.inj h
      rfl

/-- A run of tokens of the source becomes its window. -/
theorem fragment?_span {source : Source} {first last : Nat} (hle : first ≤ last)
    (hlt : last < source.words.size) (kind : FragmentKind) (context : Context) :
    ∃ f, source.fragment? (.span kind first last context) = some f ∧
      source.Window f first last ∧ f.kind = kind ∧ f.context = context ∧ f.file = source.name := by
  have hfirst : source.words[first]? = some source.words[first] :=
    Array.getElem?_eq_getElem (Nat.lt_of_le_of_lt hle hlt)
  have hlast : source.words[last]? = some source.words[last] := Array.getElem?_eq_getElem hlt
  refine ⟨_, by simp only [fragment?, hfirst, hlast, bind, Option.bind]; rfl, ?_, rfl, rfl, rfl⟩
  exact ⟨hle, hlt, rfl, by rw [hfirst]; rfl, by rw [hlast]; rfl, rfl, rfl, rfl⟩

/-- What a cut of the text becomes: a preprocessor line, or the window of a run that the walk cut. -/
theorem fragment?_of_mem_cuts (name : String) {cut : Cut} (h : cut ∈ cutsOfText text) :
    ∃ f, (Source.ofText name text).fragment? cut = some f ∧
      ((∃ k t, cut = .directive k ∧ (Source.ofText name text).directives[k]? = some t ∧
          f = (Source.ofText name text).directiveFragment t) ∨
        ∃ kind first last context, cut = .span kind first last context ∧
          Cuts text kind first last ∧ (Source.ofText name text).Window f first last ∧
          f.kind = kind ∧ f.context = context ∧ f.file = name) := by
  rcases of_mem_cutsOf h with ⟨k, hk, rfl⟩ | ⟨kind, first, last, context, rfl, hcut⟩
  · rw [← size_directives name text] at hk
    have hget := Array.getElem?_eq_getElem hk
    refine ⟨_, ?_, .inl ⟨k, _, rfl, hget, rfl⟩⟩
    simp only [fragment?, hget, Option.map_some]
  · obtain ⟨hle, hlt⟩ := Cuts.range hcut
    rw [← size_words name text] at hlt
    obtain ⟨f, hf, hwindow, hkind, hcontext, hfile⟩ := fragment?_span hle hlt kind context
    exact ⟨f, hf, .inr ⟨kind, first, last, context, rfl, hcut, hwindow, hkind, hcontext, hfile⟩⟩

end Source

end CxxFloor
