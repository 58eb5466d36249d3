/-
# Constructs that are reported twice

Slots keep rivals apart in one fragment, but a token may belong to several: a
lambda's to the statement around it as well, and a statement's to that which
goes on around a body in it.  Two findings clash if they start at one token and
are of one feature or share a slot.  Then each of them is that of a fragment of
its own, and what keeps fragments from showing the same is where they lie
(`pairwise_fragments`) and where matchers look: at the top level of a statement,
outside the braces that hold another one.

Some look further, and only they repeat what another fragment shows
(`Fragment.MayShare`).  The `static` of a lambda is searched in all that stands
before its body.  The parameters of a lambda with template parameters stand
behind an angle, where a declaration has its own, or wherever a constraint is
taken to end; those of a declaration open, behind the word `operator`, at any
level.  A list of captures is split by counting brackets, which tells nothing in
a file whose brackets are wrong.  In each of these ways one construct can be
counted twice.
-/
import CxxFloor.Proofs.Feature.Place
import CxxFloor.Proofs.Scope.Overlap

namespace CxxFloor

/-- The matches are of one feature, or of features that share a slot. -/
def Match.Clashes (a b : Match) : Prop :=
  a.feature = b.feature ∨ ∃ slot, Dispatcher.slotOf? standardCatalog a = some slot ∧
    Dispatcher.slotOf? standardCatalog b = some slot

namespace Fragment

/-- The fragment is a lambda with template parameters. -/
def IsTemplated (f : Fragment) : Prop :=
  f.kind = .captureList ∧ ∃ close, f.view.bracketed.closer? 0 = some close ∧
    f.view.bracketed.punctAt (close + 1) "<" = true

/-- The fragment is a declaration with the word `operator` before an offset of the file. -/
def NamesOperator (f : Fragment) (offset : Int) : Prop :=
  f.kind = .declaration ∧ ∃ t ∈ f.tokens, t.isWord "operator" = true ∧ t.start.offset < offset

/-- Another fragment may show the construct that this one shows as `a`. -/
inductive MayShare (name text : String) (f : Fragment) (a : Match) : Prop
  /-- The specifier is found anywhere before the body of a lambda. -/
  | specifier (hslot : Dispatcher.slotOf? standardCatalog a = some "operator-static")
      (hkind : f.kind = .captureList)
  /-- The parameters stand behind an angle, or where a constraint is taken to end. -/
  | templated (hslot : Dispatcher.slotOf? standardCatalog a = some "explicit-object-parameter")
      (h : f.IsTemplated)
  /-- The parameters open anywhere behind the word `operator`. -/
  | operator (hslot : Dispatcher.slotOf? standardCatalog a = some "explicit-object-parameter")
      (h : f.NamesOperator a.offset)
  /-- The captures are told apart by brackets that do not pair. -/
  | capture (hfeature : a.feature = "enclosing-instance-value-capture")
      (hkind : f.kind = .captureList)
      (h : bracketDiagnostics (Source.ofText name text).words.toList ≠ [])

/-- The matcher finds `a` in the fragment and points at its token number `n`. -/
structure Shows (f : Fragment) (m : Matcher) (n : Nat) (a : Match) : Prop where
  matcher : m ∈ standardMatchers
  kind : f.kind ∈ m.kinds
  feature : a.feature = m.id
  found : ∃ span, m.examine f.view = .found span ∧ placeOf span = n ∧
    a.offset = (f.spot span).offset

end Fragment

def Matcher.Clashes (m m' : Matcher) : Prop := m = m' ∨ Rivals m m' ∨ Rivals m' m

namespace Matcher

variable {m m' : Matcher} {a b : Match}

theorem clashes_of_match (hm : m ∈ standardMatchers) (hm' : m' ∈ standardMatchers)
    (ha : a.feature = m.id) (hb : b.feature = m'.id) (h : a.Clashes b) : m.Clashes m' := by
  rcases h with heq | ⟨slot, hslot, hslot'⟩
  · exact .inl (Dispatcher.eq_of_mem_standardMatchers hm hm' (by rw [← ha, ← hb, heq]))
  · have hslot : standardCatalog.slot? m.id = some slot := by
      rw [← ha]
      exact hslot
    have hslot' : standardCatalog.slot? m'.id = some slot := by
      rw [← hb]
      exact hslot'
    exact rivals_of_slot? hm hm' hslot hslot'

theorem Clashes.symm (h : m.Clashes m') : m'.Clashes m := by
  rcases h with rfl | h | h
  · exact .inl rfl
  · exact .inr (.inr h)
  · exact .inr (.inl h)

theorem families_of_rivals (h : Rivals m m') :
    m ∈ signatureMatchers ∧ m' ∈ signatureMatchers ∨
      m ∈ parameterMatchers ∧ m' ∈ parameterMatchers := by
  cases h with
  | static => exact .inl ⟨by simp [signatureMatchers], by simp [signatureMatchers]⟩
  | arity => exact .inl ⟨by simp [signatureMatchers], by simp [signatureMatchers]⟩
  | objectParameter => exact .inr ⟨by simp [parameterMatchers], by simp [parameterMatchers]⟩

theorem Clashes.eq_of_kinds (h : m.Clashes m') (hkinds : m.kinds = [.declaration]) : m = m' := by
  have hne : ∀ {m m' : Matcher}, Rivals m m' →
      m.kinds ≠ [.declaration] ∧ m'.kinds ≠ [.declaration] := by
    intro m m' h
    cases h <;> exact ⟨by decide, by decide⟩
  rcases h with heq | h | h
  · exact heq
  · exact absurd hkinds (hne h).1
  · exact absurd hkinds (hne h).2

/-- Matchers that clash are of one family, and only two families have rivals. -/
theorem Clashes.families (hm : m ∈ standardMatchers) (h : m.Clashes m') :
    m = m' ∧ (m ∈ headMatchers ∨ m = assumeAttribute ∨ m = objectCapture ∨ m = restrictedGuide) ∨
      (m ∈ signatureMatchers ∧ m' ∈ signatureMatchers) ∨
      (m ∈ parameterMatchers ∧ m' ∈ parameterMatchers) := by
  rcases h with rfl | hr | hr
  · rcases CxxFloor.families hm with hhead | hsignature | hparameter | hrest
    · exact .inl ⟨rfl, .inl hhead⟩
    · exact .inr (.inl ⟨hsignature, hsignature⟩)
    · exact .inr (.inr ⟨hparameter, hparameter⟩)
    · exact .inl ⟨rfl, .inr hrest⟩
  · exact .inr (families_of_rivals hr)
  · exact .inr ((families_of_rivals hr).imp And.symm And.symm)

end Matcher

/-! ## Tokens that are pointed at -/

namespace Fragment.Shows

variable {name text : String} {f g : Fragment} {m m' : Matcher} {n n' : Nat} {a b : Match}
  {first last first' last' : Nat}

theorem of_mem_found {disabled : List String}
    (h : a ∈ ((Dispatcher.standard disabled).examine f).found) : ∃ m n, f.Shows m n a := by
  rw [Dispatcher.examine_standard] at h
  obtain ⟨o, ho, ha⟩ := List.mem_filterMap.1 h
  obtain ⟨e, he, rfl⟩ := List.mem_map.1 ho
  obtain ⟨m, hstandard, rfl, hkind⟩ := Dispatcher.kinds_contains_of_mem_matchersFor he
  obtain ⟨span, hspan, rfl⟩ := Dispatcher.of_match? ha
  exact ⟨m, placeOf span, hstandard, by simpa using hkind, rfl, span, hspan, rfl, rfl⟩

theorem slot (h : f.Shows m n a) :
    Dispatcher.slotOf? standardCatalog a = standardCatalog.slot? m.id := by
  rw [Dispatcher.slotOf?, h.feature, Catalog.slot?]

theorem token (h : f.Shows m n a) (hf : (Source.ofText name text).Window f first last) :
    first + n ≤ last ∧ ∃ t, (Source.ofText name text).words[first + n]? = some t ∧
      a.offset = t.start.offset := by
  obtain ⟨span, hspan, rfl, hoffset⟩ := h.found
  rw [hoffset]
  cases span with
  | none =>
      obtain ⟨t, ht, hstart⟩ := Option.map_eq_some_iff.1 hf.start
      exact ⟨hf.first_le, t, ht, congrArg (fun p => (p.offset : Int)) hstart.symm⟩
  | some s =>
      have hsize : f.view.bracketed.size = f.tokens.size := Array.size_map
      have hpos : 0 < f.view.bracketed.size := by
        have := hf.first_le
        rw [hf.view_size]
        omega
      obtain ⟨hordered, hlt⟩ :=
        span_in_of_mem_standardMatchers h.matcher hpos (s := s) (by rw [hspan]; rfl)
      rw [hsize] at hlt
      have ht : f.tokens[s.first]? = some f.tokens[s.first] :=
        Array.getElem?_eq_getElem (Nat.lt_of_le_of_lt hordered hlt)
      have hu : f.tokens[s.last]? = some f.tokens[s.last] := Array.getElem?_eq_getElem hlt
      obtain ⟨hword, hlast⟩ := hf.getElem?_tokens ht
      exact ⟨hlast, _, hword, by simp [Fragment.spot, ht, hu]⟩

/-- Matches at one offset start at one token of the file. -/
theorem index_eq (h : f.Shows m n a) (h' : g.Shows m' n' b)
    (hf : (Source.ofText name text).Window f first last)
    (hg : (Source.ofText name text).Window g first' last') (hoffset : a.offset = b.offset) :
    first + n = first' + n' := by
  obtain ⟨-, t, ht, ha⟩ := h.token hf
  obtain ⟨-, u, hu, hb⟩ := h'.token hg
  exact Source.words_start_inj ht hu (by omega)

end Fragment.Shows

/-! ## Fragments that lie apart -/

namespace Bracketed

variable {b : Bracketed} {first last first' last' n n' : Nat} {kind : FragmentKind}

theorem OutsideBraces.not_inBraces (hlast : last < b.size)
    (h : (b.slice first (last + 1)).OutsideBraces n) : ¬ b.InBraces first last (first + n) := by
  rintro ⟨p, q, hpq, hp, hfirst, hpn, hnq, hq⟩
  obtain ⟨p, rfl⟩ := Nat.exists_eq_add_of_le hfirst
  obtain ⟨q, rfl⟩ := Nat.exists_eq_add_of_le (show first ≤ q by omega)
  have hsize : p < (b.slice first (last + 1)).size := by
    have hstop : last + 1 ≤ b.lexemes.size := hlast
    show p < (b.lexemes.extract first (last + 1)).size
    rw [Array.size_extract, Nat.min_eq_left hstop]
    omega
  have hopen : (b.slice first (last + 1)).opensAt p .curly := by
    rw [opensAt, at?_of_extract rfl hsize]
    exact hp
  have hclose : (b.slice first (last + 1)).closer? p = some q :=
    Pairing.closer?_eq_some.2 ⟨Pairing.partner?_restrict.2 ⟨hpq, by omega, by omega⟩, by omega⟩
  have := h p q hopen hclose
  omega

/-- What a statement shows outside braces is behind a statement that it does not hold in braces. -/
theorem Apart.ne_of_outside (h : b.Apart kind first last first' last')
    (hkind : kind.ofStatement = true) (hlast' : last' < b.size) (hn : first + n ≤ last)
    (hout : (b.slice first' (last' + 1)).OutsideBraces n') : first + n ≠ first' + n' := by
  intro heq
  rcases h.statements hkind with hbehind | hinside
  · omega
  · refine hout.not_inBraces hlast' ?_
    rw [← heq]
    exact hinside _ (Nat.le_add_right first n) hn

end Bracketed

section Families

variable {name text : String} {f g : Fragment} {m m' : Matcher} {n n' : Nat} {a b : Match}

/-- Two fragments of one kind do not start at one token. -/
theorem offset_ne_of_headMatchers (hm : m ∈ headMatchers) (ha : f.Shows m n a)
    (hb : g.Shows m n' b)
    (hapart : f.kind = g.kind → f.Apart (.ofText name text) (.ofText text) g) :
    a.offset ≠ b.offset := by
  obtain ⟨kind, hkinds⟩ := exists_kind_of_headMatchers hm
  have hkind : ∀ {f : Fragment} {n : Nat} {a : Match}, f.Shows m n a → f.kind = kind := by
    intro f n a h
    have := h.kind
    rwa [hkinds, List.mem_singleton] at this
  have hplace : ∀ {f : Fragment} {n : Nat} {a : Match}, f.Shows m n a → n = 0 := by
    intro f n a h
    obtain ⟨span, hspan, rfl, -⟩ := h.found
    exact place_of_headMatchers hm hspan
  have hapart := hapart ((hkind ha).trans (hkind hb).symm)
  obtain rfl := hplace ha
  obtain rfl := hplace hb
  intro hoffset
  by_cases hdirective : f.kind = .directive
  · -- a preprocessor line is shown as a whole
    have hwhole : m ∈ wholeMatchers := by
      refine (List.mem_cons.1 hm).resolve_left ?_
      rintro rfl
      rw [← hkind ha, hdirective] at hkinds
      exact absurd hkinds (by decide)
    have hstart : ∀ {f : Fragment} {a : Match}, f.Shows m 0 a → a.offset = f.start.offset := by
      intro f a h
      obtain ⟨span, hspan, -, hoffset⟩ := h.found
      have hnone := span?_of_mem_wholeMatchers hwhole f.view
      rw [hspan] at hnone
      obtain rfl : span = none := hnone
      exact hoffset
    have hlt := hapart.lines hdirective
    rw [hstart ha, hstart hb] at hoffset
    omega
  · obtain ⟨first, last, first', last', hf, hg, hapart⟩ := hapart.runs hdirective
    exact hapart.starts (ha.index_eq hb hf hg hoffset)

/-- Attribute groups do not touch. -/
theorem offset_ne_of_assumeAttribute (ha : f.Shows assumeAttribute n a)
    (hb : g.Shows assumeAttribute n' b)
    (hapart : f.kind = g.kind → f.Apart (.ofText name text) (.ofText text) g) :
    a.offset ≠ b.offset := by
  have hkind := List.mem_singleton.1 ha.kind
  have hkind' := List.mem_singleton.1 hb.kind
  obtain ⟨first, last, first', last', hf, hg, hapart⟩ :=
    (hapart (hkind.trans hkind'.symm)).runs (by rw [hkind]; decide)
  intro hoffset
  have hindex := ha.index_eq hb hf hg hoffset
  have hlast := (ha.token hf).1
  have hbehind := hapart.attributes hkind
  omega

end Families

/-! ## Signatures -/

section Signatures

variable {name text : String} {f g : Fragment} {m m' : Matcher} {n n' : Nat} {a b : Match}
  {first last first' last' : Nat}

theorem Source.Window.slice (h : (Source.ofText name text).Window f first last)
    (hf : f ∈ (scan name text).fragments) (hkind : f.kind ≠ .directive)
    (hcase : f.kind ≠ .captureList ∨
      bracketDiagnostics (Source.ofText name text).words.toList = []) :
    f.view.bracketed = (Bracketed.ofText text).slice first (last + 1) := by
  obtain ⟨first', last', h', hslice⟩ := exists_slice hf hkind
  obtain ⟨rfl, rfl⟩ := h.unique h'
  exact hslice hcase

theorem kind_of_signatureMatchers (hm : m ∈ signatureMatchers) (ha : f.Shows m n a) :
    f.kind = .declaration ∧ m.kinds = [.declaration] ∨ f.kind = .operatorDefinition ∨
      f.kind = .captureList ∧ m = staticCall := by
  have hkind := ha.kind
  rcases kinds_of_signatureMatchers hm with ⟨hkinds, -⟩ | hkinds | rfl
  · rw [hkinds, List.mem_singleton] at hkind
    exact .inl ⟨hkind, hkinds⟩
  · rw [hkinds, List.mem_singleton] at hkind
    exact .inr (.inl hkind)
  · rcases List.mem_cons.1 hkind with hkind | hkind
    · exact .inr (.inl hkind)
    · exact .inr (.inr ⟨List.mem_singleton.1 hkind, rfl⟩)

theorem mayShare_of_lambda (hm : m ∈ signatureMatchers) (ha : f.Shows m n a)
    (hlambda : f.kind = .captureList) : f.MayShare name text a := by
  rcases kind_of_signatureMatchers hm ha with ⟨hkind, -⟩ | hkind | ⟨-, rfl⟩
  · rw [hlambda] at hkind
    cases hkind
  · rw [hlambda] at hkind
    cases hkind
  · refine .specifier ?_ hlambda
    rw [ha.slot]
    decide +kernel

theorem mayShare_of_signatureMatchers (hg : g ∈ (scan name text).fragments)
    (hm : m ∈ signatureMatchers) (hm' : m' ∈ signatureMatchers) (hclash : m.Clashes m')
    (ha : f.Shows m n a) (hb : g.Shows m' n' b)
    (hapart : f.kind = g.kind → f.Apart (.ofText name text) (.ofText text) g)
    (hoffset : a.offset = b.offset) : f.MayShare name text a ∨ g.MayShare name text b := by
  by_cases hlambda : f.kind = .captureList
  · exact .inl (mayShare_of_lambda hm ha hlambda)
  by_cases hlambda' : g.kind = .captureList
  · exact .inr (mayShare_of_lambda hm' hb hlambda')
  have hkinds : f.kind = g.kind ∧ f.kind.ofStatement = true := by
    rcases kind_of_signatureMatchers hm ha with ⟨hf, hk⟩ | hf | ⟨hf, -⟩
    · obtain rfl := hclash.eq_of_kinds hk
      have hg := hb.kind
      rw [hk, List.mem_singleton] at hg
      exact ⟨hf.trans hg.symm, hf ▸ rfl⟩
    · rcases kind_of_signatureMatchers hm' hb with ⟨-, hk⟩ | hg | ⟨hg, -⟩
      · obtain rfl := hclash.symm.eq_of_kinds hk
        have hf' := ha.kind
        rw [hk, List.mem_singleton, hf] at hf'
        cases hf'
      · exact ⟨hf.trans hg.symm, hf ▸ rfl⟩
      · exact absurd hg hlambda'
    · exact absurd hf hlambda
  have hdirective : f.kind ≠ .directive := by
    intro hno
    rw [hno] at hkinds
    cases hkinds.2
  obtain ⟨first, last, first', last', hf, hgw, hapart⟩ := (hapart hkinds.1).runs hdirective
  have hslice := hgw.slice hg (hkinds.1 ▸ hdirective) (.inl hlambda')
  obtain ⟨span, hspan, rfl, -⟩ := hb.found
  have hout := place_of_signatureMatchers (Bracketed.nested_ofLexemes _) hm' hlambda' hspan
  rw [hslice] at hout
  have hlast' : last' < (Bracketed.ofText text).size :=
    Source.size_words name text ▸ hgw.lt_size
  exact absurd (ha.index_eq hb hf hgw hoffset)
    (hapart.ne_of_outside hkinds.2 hlast' (ha.token hf).1 hout)

end Signatures

/-! ## Object parameters -/

/-- How the parameter list that a fragment reads opens at a token of the file: directly behind a
lambda's introducer, or outside braces behind a name or an angle of a declaration. -/
inductive Fragment.Opens (text : String) (f : Fragment) (first last : Nat) : Nat → Prop
  | introducer {close : Nat} (hkind : f.kind = .captureList)
      (hclose : (Bracketed.ofText text).closer? first = some close)
      (hsquare : (Bracketed.ofText text).punctAt close "]" = true) :
      Opens text f first last (close + 1)
  | name {n : Nat} (hkind : f.kind = .declaration) (hle : first + (n + 1) ≤ last)
      (hout : ((Bracketed.ofText text).slice first (last + 1)).OutsideBraces (n + 1))
      (hbefore : (Bracketed.ofText text).nameAt (first + n) = true ∨
        (Bracketed.ofText text).punctAt (first + n) ">" = true) :
      Opens text f first last (first + (n + 1))

section ObjectParameters

variable {name text : String} {f g : Fragment} {m m' : Matcher} {n n' : Nat} {a b : Match}
  {first last first' last' o : Nat}

theorem slot_of_parameterMatchers (hm : m ∈ parameterMatchers) (ha : f.Shows m n a) :
    Dispatcher.slotOf? standardCatalog a = some "explicit-object-parameter" := by
  have hslots : ∀ slot ∈ parameterMatchers.map fun m => standardCatalog.slot? m.id,
      slot = some "explicit-object-parameter" := by
    decide +kernel
  rw [ha.slot]
  exact hslots _ (List.mem_map_of_mem hm)

theorem kind_of_parameterMatchers (hm : m ∈ parameterMatchers) (ha : f.Shows m n a) :
    f.kind = .declaration ∨ f.kind = .captureList := by
  have hkind := ha.kind
  simp only [parameterMatchers, List.mem_cons, List.not_mem_nil, or_false] at hm
  rcases hm with rfl | rfl
  · simpa [deducedObjectParameter] using hkind
  · simpa [fixedObjectParameter] using hkind

theorem namesOperator_of_operatorWithin (hf : (Source.ofText name text).Window f first last)
    (hkind : f.kind = .declaration) (ha : f.Shows m n a) (hon : o < n)
    (h : f.view.bracketed.OperatorWithin 0 o) : f.NamesOperator a.offset := by
  obtain ⟨k, -, hko, hword⟩ := h
  obtain ⟨t, ht, hword⟩ := (Option.any_eq_true _ _).1 hword
  obtain ⟨-, u, hu, hoffset⟩ := ha.token hf
  have htokens : (f.tokens.map (·.toLexeme))[k]? = some t := ht
  rw [Array.getElem?_map] at htokens
  obtain ⟨t, htk, rfl⟩ := Option.map_eq_some_iff.1 htokens
  refine ⟨hkind, t, Array.mem_of_getElem? htk, hword, ?_⟩
  have := Source.words_start_lt (by omega) (hf.getElem?_tokens htk).1 hu
  omega

/-- The parameter list of a declaration opens behind a name or an angle, unless `operator` stands
before it. -/
theorem opens_of_declaration (hf : f ∈ (scan name text).fragments)
    (hw : (Source.ofText name text).Window f first last) (hkind : f.kind = .declaration)
    (ha : f.Shows m n a) {p : ObjectParameter} {names : List String}
    (h : functionObjectParameter? f.view.bracketed = some (p, names)) (hn : n = p.part.start) :
    f.NamesOperator a.offset ∨
      ∃ o, (Bracketed.ofText text).OpensParameter o (first + n) ∧ f.Opens text first last o := by
  subst hn
  have hlexemes := hw.view_lexemes
  have hsize := hw.view_size
  have hn := (ha.token hw).1
  obtain ⟨o, hopens, hcase⟩ := declaration_of_objectParameter (Bracketed.nested_ofLexemes _) h
  have hon := hopens.lt
  rcases hcase with hoperator | ⟨hout, hpos, hbefore⟩
  · exact .inl (namesOperator_of_operatorWithin hw hkind ha hon hoperator)
  · refine .inr ⟨first + o, hopens.of_extract hlexemes (by omega), ?_⟩
    obtain ⟨o, rfl⟩ := Nat.exists_eq_add_of_lt hpos
    rw [Nat.zero_add] at hout hbefore hon ⊢
    refine .name hkind (by omega) ?_ ?_
    · rw [← hw.slice hf (by rw [hkind]; decide) (.inl (by rw [hkind]; decide))]
      exact hout
    · rw [Bracketed.nameAt, Bracketed.punctAt, ← Bracketed.at?_of_extract hlexemes (by omega)]
      exact hbefore

/-- The parameter list of a lambda opens behind its introducer, unless it has template
parameters. -/
theorem opens_of_lambda (hf : f ∈ (scan name text).fragments)
    (hw : (Source.ofText name text).Window f first last) (hkind : f.kind = .captureList)
    (ha : f.Shows m n a) {p : ObjectParameter} {names : List String}
    (h : lambdaObjectParameter? f.view.bracketed = some (p, names)) (hn : n = p.part.start) :
    f.IsTemplated ∨
      ∃ o, (Bracketed.ofText text).OpensParameter o (first + n) ∧ f.Opens text first last o := by
  subst hn
  have hlexemes := hw.view_lexemes
  have hsize := hw.view_size
  have hn := (ha.token hw).1
  obtain ⟨close, o, hopen, hclose, hopens, hcase⟩ := lambda_of_objectParameter h
  rcases hcase with hangle | rfl
  · exact .inl ⟨hkind, close, hclose, hangle⟩
  · obtain ⟨close', -, hclose', hlocal⟩ := Source.closer?_of_lambda hf hkind hw
    obtain rfl := Option.some.inj (hclose.symm.trans hlocal)
    refine .inr ⟨first + close + 1, hopens.of_extract hlexemes (by omega), ?_⟩
    rw [Bracketed.punctAt, Bracketed.at?_of_extract hlexemes (by omega)] at hopen
    have hsquare : (Bracketed.ofText text).closesAt (first + close) .square :=
      (Bracketed.nested_ofLexemes _).closesAt_of_opensAt (Bracketed.partner?_of_closer? hclose')
        (Bracketed.opensAt_of_punctAt hopen)
    exact .introducer hkind hclose' (Bracketed.punctAt_of_closesAt hsquare)

/-- A fragment that shows an object parameter may share it, or its parameter list opens in one of
two ways. -/
theorem opens_of_parameterMatchers (hf : f ∈ (scan name text).fragments)
    (hw : (Source.ofText name text).Window f first last) (hm : m ∈ parameterMatchers)
    (ha : f.Shows m n a) : f.MayShare name text a ∨
      ∃ o, (Bracketed.ofText text).OpensParameter o (first + n) ∧ f.Opens text first last o := by
  have hslot := slot_of_parameterMatchers hm ha
  obtain ⟨span, hspan, rfl, -⟩ := ha.found
  obtain ⟨p, names, hp, hstart⟩ := place_of_parameterMatchers hm hspan
  rw [objectParameterOf?, show f.view.kind = f.kind from rfl] at hp
  rcases kind_of_parameterMatchers hm ha with hkind | hkind
  · rw [if_neg (by rw [hkind]; decide)] at hp
    exact (opens_of_declaration hf hw hkind ha hp hstart).imp_left (.operator hslot)
  · rw [if_pos (by rw [hkind]; decide)] at hp
    exact (opens_of_lambda hf hw hkind ha hp hstart).imp_left (.templated hslot)

/-- The list that a lambda's introducer opens is not one that a name opens. -/
theorem Fragment.Opens.not_both {close k : Nat}
    (hsquare : (Bracketed.ofText text).punctAt close "]" = true)
    (hbefore : (Bracketed.ofText text).nameAt k = true ∨
      (Bracketed.ofText text).punctAt k ">" = true) : close ≠ k := by
  rintro rfl
  rcases hbefore with hname | hangle
  · obtain ⟨t, ht, hp⟩ := Bracketed.punctAt_iff.1 hsquare
    rw [Bracketed.nameAt, ht] at hname
    simp only [Option.any_some, Lexeme.isName, beq_iff_eq] at hname
    simp [Lexeme.isPunct, hname] at hp
  · rw [Bracketed.punctAt_unique hsquare (by decide)] at hangle
    cases hangle

/-- Fragments that lie apart do not open one parameter list. -/
theorem Fragment.Opens.apart (h : f.Opens text first last o) (h' : g.Opens text first' last' o)
    (hlast' : last' < (Bracketed.ofText text).size)
    (hapart : f.kind = g.kind → (Bracketed.ofText text).Apart f.kind first last first' last') :
    False := by
  have hb : (Bracketed.ofText text).Nested := Bracketed.nested_ofLexemes _
  generalize ho : o = o' at h'
  cases h with
  | introducer hkind hclose hsquare =>
      cases h' with
      | introducer hkind' hclose' =>
          obtain rfl := Nat.succ.inj ho
          refine (hapart (hkind.trans hkind'.symm)).starts ?_
          have hfirst := hb.partner_symm (Bracketed.partner?_of_closer? hclose)
          rw [hb.partner_symm (Bracketed.partner?_of_closer? hclose')] at hfirst
          exact (Option.some.inj hfirst).symm
      | name _ _ _ hbefore' => exact not_both hsquare hbefore' (by omega)
  | name hkind hle hout hbefore =>
      cases h' with
      | introducer _ _ hsquare' => exact not_both hsquare' hbefore (by omega)
      | name hkind' hle' hout' =>
          refine (hapart (hkind.trans hkind'.symm)).ne_of_outside ?_ hlast' hle hout' ho
          rw [hkind]
          rfl

/-- One object parameter is shown by one fragment, unless it may be shared. -/
theorem mayShare_of_parameterMatchers (hf : f ∈ (scan name text).fragments)
    (hg : g ∈ (scan name text).fragments) (hm : m ∈ parameterMatchers)
    (hm' : m' ∈ parameterMatchers) (ha : f.Shows m n a) (hb : g.Shows m' n' b)
    (hapart : f.kind = g.kind → f.Apart (.ofText name text) (.ofText text) g)
    (hoffset : a.offset = b.offset) : f.MayShare name text a ∨ g.MayShare name text b := by
  have hdirective : ∀ {f : Fragment} {m : Matcher} {n : Nat} {a : Match}, m ∈ parameterMatchers →
      f.Shows m n a → f.kind ≠ .directive := by
    intro f m n a hm ha hno
    rcases kind_of_parameterMatchers hm ha with hkind | hkind <;> rw [hno] at hkind <;> cases hkind
  obtain ⟨first, last, hw, -⟩ := Source.exists_slice hf (hdirective hm ha)
  obtain ⟨first', last', hw', -⟩ := Source.exists_slice hg (hdirective hm' hb)
  rcases opens_of_parameterMatchers hf hw hm ha with hshare | ⟨o, hopens, hway⟩
  · exact .inl hshare
  rcases opens_of_parameterMatchers hg hw' hm' hb with hshare | ⟨o', hopens', hway'⟩
  · exact .inr hshare
  -- the parameter tells its list
  rw [ha.index_eq hb hw hw' hoffset] at hopens
  obtain rfl := hopens.unique hopens'
  have hlast' : last' < (Bracketed.ofText text).size := Source.size_words name text ▸ hw'.lt_size
  refine (hway.apart hway' hlast' fun hkind => ?_).elim
  obtain ⟨i, j, i', j', hi, hi', hapart⟩ := (hapart hkind).runs (hdirective hm ha)
  obtain ⟨rfl, rfl⟩ := hw.unique hi
  obtain ⟨rfl, rfl⟩ := hw'.unique hi'
  exact hapart

end ObjectParameters

/-! ## Captures -/

/-- A capture stands inside the introducer, and the brackets between its front and the capture are
counted as even. -/
theorem Fragment.Shows.capture {name text : String} {f : Fragment} {n : Nat} {a : Match}
    {first last : Nat} (hf : f ∈ (scan name text).fragments)
    (hw : (Source.ofText name text).Window f first last) (ha : f.Shows objectCapture n a) :
    ∃ close, (Bracketed.ofText text).closer? first = some close ∧
      (Bracketed.ofText text).opensAt first .square ∧ first < first + n ∧ first + n ≤ close ∧
      depthOf Lexeme.weight ((Bracketed.ofText text).between (first + 1) (first + n)) = 0 := by
  have hkind : f.kind = .captureList := List.mem_singleton.1 ha.kind
  have hlexemes := hw.view_lexemes
  have hsize := hw.view_size
  have hlast := (ha.token hw).1
  obtain ⟨span, hspan, rfl, -⟩ := ha.found
  obtain ⟨close, hopen, hclose, hpos, hle, hdepth⟩ := place_of_objectCapture hspan
  obtain ⟨close', -, hclose', hlocal⟩ := Source.closer?_of_lambda hf hkind hw
  obtain rfl := Option.some.inj (hclose.symm.trans hlocal)
  rw [Bracketed.between_of_extract hlexemes (by omega)] at hdepth
  refine ⟨first + close, hclose', Bracketed.opensAt_of_punctAt ?_, by omega, by omega, hdepth⟩
  rw [Bracketed.punctAt, Bracketed.at?_of_extract hlexemes (by omega)] at hopen
  exact hopen

/-- One capture is shown by one lambda, if all brackets are paired. -/
theorem offset_ne_of_objectCapture {name text : String} {f g : Fragment} {n n' : Nat}
    {a b : Match} (hf : f ∈ (scan name text).fragments) (hg : g ∈ (scan name text).fragments)
    (ha : f.Shows objectCapture n a) (hb : g.Shows objectCapture n' b)
    (hapart : f.kind = g.kind → f.Apart (.ofText name text) (.ofText text) g)
    (hbrackets : bracketDiagnostics (Source.ofText name text).words.toList = []) :
    a.offset ≠ b.offset := by
  have hn : (Bracketed.ofText text).Nested := Bracketed.nested_ofLexemes _
  have hkind : f.kind = .captureList := List.mem_singleton.1 ha.kind
  have hkind' : g.kind = .captureList := List.mem_singleton.1 hb.kind
  obtain ⟨first, last, first', last', hw, hw', hapart⟩ :=
    (hapart (hkind.trans hkind'.symm)).runs (by rw [hkind]; decide)
  have hpaired : ∀ k t, (Bracketed.ofText text).at? k = some t → t.weight ≠ 0 →
      ∃ l, (Bracketed.ofText text).pairs.partner? k = some l := by
    have horphans := allOrphans_eq_nil hbrackets
    rw [← Array.toList_map, Source.words_map_toLexeme] at horphans
    intro k t ht hweight
    refine exists_partner horphans ?_ hweight
    rw [Array.getElem?_toList]
    exact ht
  -- an introducer before another one leaves it open at the capture
  have hbefore : ∀ {i j k c : Nat}, (Bracketed.ofText text).closer? i = some c →
      (Bracketed.ofText text).opensAt j .square → k ≤ c → j < k →
      depthOf Lexeme.weight ((Bracketed.ofText text).between (i + 1) k) = 0 →
      depthOf Lexeme.weight ((Bracketed.ofText text).between (j + 1) k) = 0 → ¬ i < j := by
    intro i j k c hclose hsquare hkc hjk hdepth hdepth' hij
    obtain ⟨t, ht, -⟩ := Option.bind_eq_some_iff.1 hsquare
    have hnonneg := hn.depth_nonneg hpaired hclose hij (by omega)
    have hweight := Bracketed.weight_of_opensAt ht hsquare
    rw [Bracketed.between_append (show i + 1 ≤ j + 1 by omega) (show j + 1 ≤ k by omega),
      Bracketed.between_succ (by omega) ht, depthOf_append, depthOf_append, hdepth', depthOf_cons,
      depthOf_nil, hweight] at hdepth
    omega
  intro hoffset
  have hindex := ha.index_eq hb hw hw' hoffset
  obtain ⟨c, hclose, hsquare, hlt, hle, hdepth⟩ := ha.capture hf hw
  obtain ⟨c', hclose', hsquare', hlt', hle', hdepth'⟩ := hb.capture hg hw'
  rw [← hindex] at hlt' hle' hdepth'
  rcases Nat.lt_or_gt_of_ne hapart.starts with hearlier | hlater
  · exact hbefore hclose hsquare' hle hlt' hdepth hdepth' hearlier
  · exact hbefore hclose' hsquare hle' hlt hdepth' hdepth hlater

/-! ## Findings -/

section Findings

variable {name text : String} {f g : Fragment} {disabled : List String} {a b : Match}

/-- Matches of two fragments that clash at one offset may be shared. -/
theorem mayShare_of_clashes (hf : f ∈ (scan name text).fragments)
    (hg : g ∈ (scan name text).fragments)
    (hapart : f.kind = g.kind → f.Apart (.ofText name text) (.ofText text) g)
    (ha : a ∈ ((Dispatcher.standard disabled).examine f).found)
    (hb : b ∈ ((Dispatcher.standard disabled).examine g).found) (hoffset : a.offset = b.offset)
    (hclash : a.Clashes b) : f.MayShare name text a ∨ g.MayShare name text b := by
  obtain ⟨m, n, ha⟩ := Fragment.Shows.of_mem_found ha
  obtain ⟨m', n', hb⟩ := Fragment.Shows.of_mem_found hb
  have hclash := Matcher.clashes_of_match ha.matcher hb.matcher ha.feature hb.feature hclash
  rcases hclash.families ha.matcher with ⟨rfl, hcase⟩ | ⟨hm, hm'⟩ | ⟨hm, hm'⟩
  · rcases hcase with hm | rfl | rfl | rfl
    · exact absurd hoffset (offset_ne_of_headMatchers hm ha hb hapart)
    · exact absurd hoffset (offset_ne_of_assumeAttribute ha hb hapart)
    · by_cases hbrackets : bracketDiagnostics (Source.ofText name text).words.toList = []
      · exact absurd hoffset (offset_ne_of_objectCapture hf hg ha hb hapart hbrackets)
      · exact .inl (.capture ha.feature (List.mem_singleton.1 ha.kind) hbrackets)
    · obtain ⟨span, hspan, -⟩ := ha.found
      exact absurd hspan not_found_restrictedGuide
  · exact mayShare_of_signatureMatchers hg hm hm' hclash ha hb hapart hoffset
  · exact mayShare_of_parameterMatchers hf hg hm hm' ha hb hapart hoffset

theorem pairwise_found (disabled : List String) (f : Fragment) :
    ((Dispatcher.standard disabled).examine f).found.Pairwise fun a b => ¬ a.Clashes b := by
  rw [Dispatcher.examine_standard]
  have hslots := Dispatcher.slotsApart_claims disabled f
  have hfeatures : ((Dispatcher.standard disabled).claims f).Pairwise
      fun a b => a.feature ≠ b.feature := by
    simp only [Dispatcher.claims]
    rw [List.filterMap_map]
    refine List.Pairwise.filterMap _ ?_ ((Dispatcher.nodup_matchers_standard disabled).filter _)
    intro m m' hne a ha b hb
    rw [Dispatcher.feature_of_match? ha, Dispatcher.feature_of_match? hb]
    exact hne
  refine (hfeatures.and hslots).imp ?_
  rintro a b ⟨hfeature, hslot⟩ (heq | ⟨slot, ha, hb⟩)
  · exact hfeature heq
  · exact hslot slot ha hb

theorem Match.Clashes.symm (h : a.Clashes b) : b.Clashes a :=
  h.imp Eq.symm fun ⟨slot, ha, hb⟩ => ⟨slot, hb, ha⟩

theorem Fragment.Apart.ne
    (hapart : f.kind = g.kind → f.Apart (.ofText name text) (.ofText text) g) : f ≠ g := by
  rintro rfl
  by_cases hdirective : f.kind = .directive
  · exact Nat.lt_irrefl _ ((hapart rfl).lines hdirective)
  · obtain ⟨first, last, first', last', hw, hw', hapart⟩ := (hapart rfl).runs hdirective
    exact hapart.starts (hw.unique hw').1

/-- The matches are those of two fragments of the text, one of which may share what it shows. -/
def Match.Shared (name text : String) (disabled : List String) (a b : Match) : Prop :=
  ∃ f ∈ (scan name text).fragments, ∃ g ∈ (scan name text).fragments, f ≠ g ∧
    a ∈ ((Dispatcher.standard disabled).examine f).found ∧
    b ∈ ((Dispatcher.standard disabled).examine g).found ∧
    (f.MayShare name text a ∨ g.MayShare name text b)

theorem Match.Shared.symm (h : a.Shared name text disabled b) : b.Shared name text disabled a := by
  obtain ⟨f, hf, g, hg, hne, ha, hb, hshare⟩ := h
  exact ⟨g, hg, f, hf, hne.symm, hb, ha, hshare.symm⟩

end Findings

/-- Of the findings in a text, two that start at one token and are of one feature, or of features
that share a slot, belong to two fragments, and one of these may share what it shows. -/
theorem clashing_findings_are_shared {disabled : List String}
    (known : ∀ id ∈ disabled, standardCatalog.contains id = true) (name text : String)
    (floor : Int) :
    ∃ report, classifyText name text standardCatalog floor disabled = .ok report ∧
      report.classification.findings.Pairwise fun a b =>
        a.offset = b.offset → a.Clashes b → a.Shared name text disabled b := by
  refine ⟨_, classifyText_standard known name text floor, ?_⟩
  have hfound : ((Dispatcher.standard disabled).run (scan name text).fragments).found.Pairwise
      fun a b => a.offset = b.offset → a.Clashes b → a.Shared name text disabled b := by
    simp only [Dispatcher.run, MatchSet.join]
    rw [List.flatMap_map]
    refine List.pairwise_flatMap.2 ⟨fun f _ => ?_, ?_⟩
    · exact (pairwise_found disabled f).imp fun hno _ hclash => absurd hclash hno
    · refine (pairwise_fragments name text).imp_of_mem ?_
      intro f g hf hg hapart a ha b hb hoffset hclash
      exact ⟨f, hf, g, hg, Fragment.Apart.ne hapart, ha, hb, mayShare_of_clashes hf hg hapart ha hb hoffset hclash⟩
  exact hfound.perm (List.mergeSort_perm _ _).symm fun h hoffset hclash =>
    (h hoffset.symm hclash.symm).symm

/-- With a disabled feature: a member with an object parameter of a fixed type. -/
theorem clashing_findings_are_shared_member :
    ∃ report, classifyText "a.cpp" "struct S \x7b int f(this S s); \x7d;" standardCatalog 20
        ["static-call-operator"] = .ok report ∧
      report.classification.findings.Pairwise (fun a b => a.offset = b.offset → a.Clashes b →
        a.Shared "a.cpp" "struct S \x7b int f(this S s); \x7d;" ["static-call-operator"] b) ∧
      ⟨⟨1, 18, 17, "this S s"⟩, "explicit-object-parameter", "a.cpp"⟩
        ∈ report.classification.findings := by
  have known : ∀ id ∈ ["static-call-operator"], standardCatalog.contains id = true := by
    decide +kernel
  obtain ⟨report, hreport, hshared⟩ :=
    clashing_findings_are_shared known "a.cpp" "struct S \x7b int f(this S s); \x7d;" 20
  refine ⟨report, hreport, hshared, ?_⟩
  rw [classifyText_standard known] at hreport
  obtain rfl := Except.ok.inj hreport
  have hfixed : fixedObjectParameter ∈ standardMatchers := by simp [standardMatchers]
  refine ((Dispatcher.mem_findings_iff hfixed (by decide)).2 ?_).1
  rw [scan_fragments_eq (by decide +kernel)]
  decide +kernel

/-- Matches that clash in a text are findings that do. -/
theorem exists_clash {name text : String} {m m' : Matcher} {a b : Match}
    (hm : m ∈ standardMatchers) (hm' : m' ∈ standardMatchers) (hne : a ≠ b)
    (hoffset : a.offset = b.offset) (hclash : a.Clashes b) (floor : Int)
    (h : (∃ f ∈ (scan name text).fragments, m.kinds.contains f.kind = true ∧
        Dispatcher.match? (m.outcome f) = some a) ∧
      ∃ f ∈ (scan name text).fragments, m'.kinds.contains f.kind = true ∧
        Dispatcher.match? (m'.outcome f) = some b) :
    ∃ report, classifyText name text standardCatalog floor [] = .ok report ∧
      ∃ a ∈ report.classification.findings, ∃ b ∈ report.classification.findings,
        a ≠ b ∧ a.offset = b.offset ∧ a.Clashes b :=
  ⟨_, classifyText_standard (by simp) _ _ _,
    a, ((Dispatcher.mem_findings_iff hm (by simp)).2 h.1).1,
    b, ((Dispatcher.mem_findings_iff hm' (by simp)).2 h.2).1, hne, hoffset, hclash⟩

/-- Constructs that are counted twice.  The parameter of a lambda with template parameters is taken
for one of the bit-field around it as well, of a fixed type; and the `static` of a lambda for a
specifier of the operator that is declared behind it. -/
theorem constructs_counted_twice :
    (∃ report, classifyText "a.cpp"
        "struct S \x7b int x : []<class T>(this T self, int n) \x7b return n; \x7d(3); \x7d;"
        standardCatalog 20 [] = .ok report ∧
      ∃ a ∈ report.classification.findings, ∃ b ∈ report.classification.findings,
        a ≠ b ∧ a.offset = b.offset ∧ a.Clashes b) ∧
    ∃ report, classifyText "a.cpp"
        "struct S \x7b int y = [](int n) static \x7b return n; \x7d(3), operator()(int); \x7d;"
        standardCatalog 20 [] = .ok report ∧
      ∃ a ∈ report.classification.findings, ∃ b ∈ report.classification.findings,
        a ≠ b ∧ a.offset = b.offset ∧ a.Clashes b := by
  have hdeduced : deducedObjectParameter ∈ standardMatchers := by simp [standardMatchers]
  have hfixed : fixedObjectParameter ∈ standardMatchers := by simp [standardMatchers]
  have hstatic : staticCall ∈ standardMatchers := by simp [standardMatchers]
  constructor
  · refine exists_clash hdeduced hfixed
      (a := ⟨⟨1, 32, 31, "this T self"⟩, "deduced-return-type-as-parameter", "a.cpp"⟩)
      (b := ⟨⟨1, 32, 31, "this T self"⟩, "explicit-object-parameter", "a.cpp"⟩)
      (by decide) rfl (.inr ⟨"explicit-object-parameter", rfl, rfl⟩) 20 ?_
    rw [scan_fragments_eq (by decide +kernel)]
    decide +kernel
  · refine exists_clash hstatic hstatic
      (a := ⟨⟨1, 30, 29, "static"⟩, "static-call-operator", "a.cpp"⟩)
      (b := ⟨⟨1, 30, 29, "static \x7b return n; \x7d(3), operator()"⟩, "static-call-operator", "a.cpp"⟩)
      (by decide) rfl (.inl rfl) 20 ?_
    rw [scan_fragments_eq (by decide +kernel)]
    decide +kernel

end CxxFloor
