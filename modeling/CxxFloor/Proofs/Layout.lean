/-
# Layout does not matter

Two texts with the same lexemes are two layouts of one file: blanks, comments
and joined line ends differ, and with them every offset, line and column.  Both
are cut into the same fragments, since the walk reads lexemes only; what
differs is where the fragments stand and how their texts look.

Tokens of the same number are twins (`Twin`).  Places at twins correspond, and
they are in the same order in both texts (`twinSpots_lt_iff`).  So the
fragments correspond (`fragments_like`), what is found in them does, and
sorting by place and feature puts corresponding findings in the same order
(`classifyText_of_same_lexemes`).
-/
import CxxFloor.Proofs.Feature.Correspondence
import CxxFloor.Proofs.Fragment.Window
import CxxFloor.Proofs.Order

namespace CxxFloor

def tokenAt? (text : String) (offset : Int) : Option Nat :=
  (tokens text.toList).findIdx? fun t => decide ((t.start.offset : Int) = offset)

/-- The feature of a finding, and the number of the token where it is found. -/
def anchor (text : String) (m : Match) : String × Option Nat := (m.feature, tokenAt? text m.offset)

def SameLexemes (text text' : String) : Prop :=
  (tokens text.toList).map (·.toLexeme) = (tokens text'.toList).map (·.toLexeme)

section Tokens

variable {text text' : String} {t t' u u' : Token} {j k : Nat}

/-! ## Tokens and offsets -/

theorem start_lt_iff (ht : (tokens text.toList)[j]? = some t)
    (hu : (tokens text.toList)[k]? = some u) : t.start.offset < u.start.offset ↔ j < k := by
  obtain ⟨hj, rfl⟩ := List.getElem?_eq_some_iff.1 ht
  obtain ⟨hk, rfl⟩ := List.getElem?_eq_some_iff.1 hu
  have hsorted := List.pairwise_iff_getElem.1 (tokens_sorted text.toList)
  have hpos : ∀ {i : Nat} (hi : i < (tokens text.toList).length),
      (tokens text.toList)[i].start.offset < (tokens text.toList)[i].stop :=
    fun hi => start_lt_stop (List.getElem_mem hi)
  rcases Nat.lt_trichotomy j k with hlt | rfl | hgt
  · have := hsorted j k hj hk hlt
    have := hpos hj
    exact ⟨fun _ => hlt, fun _ => by omega⟩
  · exact ⟨fun h => absurd h (Nat.lt_irrefl _), fun h => absurd h (Nat.lt_irrefl _)⟩
  · have := hsorted k j hk hj hgt
    have := hpos hk
    exact ⟨fun h => by omega, fun h => by omega⟩

theorem tokenAt?_start (ht : (tokens text.toList)[j]? = some t) :
    tokenAt? text t.start.offset = some j := by
  obtain ⟨hj, hget⟩ := List.getElem?_eq_some_iff.1 ht
  refine List.findIdx?_eq_some_iff_getElem.2 ⟨hj, by simp [hget], ?_⟩
  intro i hi
  have hlt := (start_lt_iff (List.getElem?_eq_getElem (Nat.lt_trans hi hj)) ht).2 hi
  simp only [decide_eq_true_eq]
  omega

/-! ## Twins -/

def Twin (text text' : String) (t u : Token) : Prop :=
  ∃ j : Nat, (tokens text.toList)[j]? = some t ∧ (tokens text'.toList)[j]? = some u

theorem Twin.toLexeme_eq (hsame : SameLexemes text text') (h : Twin text text' t u) :
    t.toLexeme = u.toLexeme := by
  obtain ⟨j, ht, hu⟩ := h
  have := congrArg (·[j]?) hsame
  simpa [ht, hu] using this

theorem forall₂_twin (hsame : SameLexemes text text') :
    List.Forall₂ (Twin text text') (tokens text.toList) (tokens text'.toList) := by
  have hlength : (tokens text.toList).length = (tokens text'.toList).length := by
    have := congrArg List.length hsame
    simpa using this
  exact List.forall₂_iff_get.2 ⟨hlength, fun j hj hj' =>
    ⟨j, List.getElem?_eq_getElem hj, List.getElem?_eq_getElem hj'⟩⟩

def TwinSpots (text text' : String) (s s' : Spot) : Prop :=
  ∃ t u, Twin text text' t u ∧ s.offset = t.start.offset ∧ s'.offset = u.start.offset

theorem TwinSpots.tokenAt? {s s' : Spot} (h : TwinSpots text text' s s') :
    ∃ j, tokenAt? text s.offset = some j ∧ tokenAt? text' s'.offset = some j := by
  obtain ⟨t, u, ⟨j, ht, hu⟩, hs, hs'⟩ := h
  rw [hs, hs']
  exact ⟨j, tokenAt?_start ht, tokenAt?_start hu⟩

theorem twinSpots_lt_iff {s s' r r' : Spot} (hs : TwinSpots text text' s s')
    (hr : TwinSpots text text' r r') : s.offset < r.offset ↔ s'.offset < r'.offset := by
  obtain ⟨t, u, ⟨j, ht, hu⟩, hs, hs'⟩ := hs
  obtain ⟨v, w, ⟨k, hv, hw⟩, hr, hr'⟩ := hr
  rw [hs, hr, hs', hr', Int.ofNat_lt, Int.ofNat_lt, start_lt_iff ht hv, start_lt_iff hu hw]

theorem twinSpots_eq_iff {s s' r r' : Spot} (hs : TwinSpots text text' s s')
    (hr : TwinSpots text text' r r') : s.offset = r.offset ↔ s'.offset = r'.offset := by
  have hlt := twinSpots_lt_iff hs hr
  have hgt := twinSpots_lt_iff hr hs
  omega

/-! ## Fragments -/

theorem getElem?_rel {α β : Type} {R : α → β → Prop} {l : List α} {l' : List β}
    (h : List.Forall₂ R l l') (k : Nat) : Option.Rel R l[k]? l'[k]? := by
  induction h generalizing k with
  | nil => exact .none
  | cons hab _ ih =>
      cases k with
      | zero => exact .some hab
      | succ k => exact ih k

theorem array_getElem?_rel {α β : Type} {R : α → β → Prop} {xs : Array α} {ys : Array β}
    (h : List.Forall₂ R xs.toList ys.toList) (k : Nat) : Option.Rel R xs[k]? ys[k]? := by
  rw [← Array.getElem?_toList, ← Array.getElem?_toList]
  exact getElem?_rel h k

theorem rel_cases {α β : Type} {R : α → β → Prop} {o : Option α} {o' : Option β}
    (h : Option.Rel R o o') :
    (o = none ∧ o' = none) ∨ ∃ a b, o = some a ∧ o' = some b ∧ R a b := by
  cases h with
  | none => exact .inl ⟨rfl, rfl⟩
  | some hab => exact .inr ⟨_, _, rfl, rfl, hab⟩

theorem map_toLexeme_eq (hsame : SameLexemes text text') {o o' : Option Token}
    (h : Option.Rel (Twin text text') o o') : o.map (·.toLexeme) = o'.map (·.toLexeme) := by
  cases h with
  | none => rfl
  | some h => exact congrArg some (h.toLexeme_eq hsame)

/-- Fragments of twins, the same being known about them, correspond. -/
theorem Fragment.like_of_twins (hsame : SameLexemes text text') {f g : Fragment}
    (hkind : f.kind = g.kind) (hcontext : f.context = g.context)
    (htext : f.kind.isSpelled = true → f.text = g.text)
    (hstart : ∃ t u, Twin text text' t u ∧ f.start = t.start ∧ g.start = u.start)
    (htokens : ∀ k : Nat, Option.Rel (Twin text text') f.tokens[k]? g.tokens[k]?)
    (hprevious : Option.Rel (Twin text text') f.previous g.previous)
    (hnext : Option.Rel (Twin text text') f.next g.next) : f.Like (TwinSpots text text') g := by
  have hwhole : TwinSpots text text' f.whole g.whole := by
    obtain ⟨t, u, htwin, hf, hg⟩ := hstart
    refine ⟨t, u, htwin, ?_, ?_⟩
    · rw [← hf]; rfl
    · rw [← hg]; rfl
  constructor
  · have hlexemes : f.view.lexemes = g.view.lexemes := by
      apply Array.ext_getElem?
      intro k
      show (f.tokens.map (·.toLexeme))[k]? = (g.tokens.map (·.toLexeme))[k]?
      rw [Array.getElem?_map, Array.getElem?_map]
      exact map_toLexeme_eq hsame (htokens k)
    have hprev : f.view.previous = g.view.previous := map_toLexeme_eq hsame hprevious
    exact ⟨hkind, hlexemes, htext, by rw [hprev], by rw [hprev], map_toLexeme_eq hsame hnext,
      hcontext⟩
  · intro span
    cases span with
    | none => exact hwhole
    | some span =>
        rcases rel_cases (htokens span.first) with ⟨hf, hg⟩ | ⟨t, u, hf, hg, htwin⟩
        · rw [Fragment.spot, Fragment.spot, hf, hg]
          exact hwhole
        rcases rel_cases (htokens span.last) with ⟨hf', hg'⟩ | ⟨t', u', hf', hg', -⟩
        · rw [Fragment.spot, Fragment.spot, hf, hg, hf', hg']
          exact hwhole
        · rw [Fragment.spot, Fragment.spot, hf, hg, hf', hg']
          exact ⟨t, u, htwin, rfl, rfl⟩

theorem words_forall₂ (hsame : SameLexemes text text') (name name' : String) :
    List.Forall₂ (Twin text text') (Source.ofText name text).words.toList
      (Source.ofText name' text').words.toList := by
  refine List.rel_filter (fun t u htwin => ?_) (forall₂_twin hsame)
  simp only [htwin.toLexeme_eq hsame]

theorem directives_forall₂ (hsame : SameLexemes text text') (name name' : String) :
    List.Forall₂ (Twin text text') (Source.ofText name text).directives.toList
      (Source.ofText name' text').directives.toList := by
  refine List.rel_filter (fun t u htwin => ?_) (forall₂_twin hsame)
  simp only [htwin.toLexeme_eq hsame]

theorem Source.Window.text_of_single {name : String} {f : Fragment} {k : Nat} {t : Token}
    (h : (Source.ofText name text).Window f k k)
    (ht : (Source.ofText name text).words[k]? = some t) : f.text = t.text := by
  obtain ⟨hmem, hkind⟩ := Source.mem_tokens_of_words ht
  have hstart : t.start = f.start := by
    have := h.start
    rw [ht] at this
    exact Option.some.inj this
  have hstop : t.stop = f.stop := by
    have := h.stop
    rw [ht] at this
    exact Option.some.inj this
  rw [h.text, ← hstart, ← hstop]
  exact slice_token hmem hkind

theorem window_rel (hsame : SameLexemes text text') {name name' : String} {f g : Fragment}
    {first last : Nat} {kind : FragmentKind} (hcut : Source.Cuts text kind first last)
    (hf : (Source.ofText name text).Window f first last)
    (hg : (Source.ofText name' text').Window g first last) (hfkind : f.kind = kind)
    (hgkind : g.kind = kind) (hcontext : f.context = g.context) :
    f.Like (TwinSpots text text') g := by
  have hforall := words_forall₂ hsame name name'
  have hwords := array_getElem?_rel hforall
  obtain ⟨t, u, ht, hu, htwin⟩ : ∃ t u, (Source.ofText name text).words[first]? = some t ∧
      (Source.ofText name' text').words[first]? = some u ∧ Twin text text' t u := by
    rcases rel_cases (hwords first) with ⟨hnone, -⟩ | htwins
    · have := Array.getElem?_eq_none_iff.1 hnone
      have := hf.first_le
      have := hf.lt_size
      omega
    · exact htwins
  refine Fragment.like_of_twins hsame (hfkind.trans hgkind.symm) hcontext ?_ ?_ ?_ ?_ ?_
  · intro hspelled
    obtain ⟨i, s, -, -, hstep⟩ := hcut
    rw [hfkind] at hspelled
    cases hstep with
    | literal =>
        rw [hf.text_of_single ht, hg.text_of_single hu]
        exact congrArg Lexeme.text (htwin.toLexeme_eq hsame)
    | _ => cases hspelled
  · have hfstart := hf.start
    have hgstart := hg.start
    rw [ht] at hfstart
    rw [hu] at hgstart
    exact ⟨t, u, htwin, (Option.some.inj hfstart).symm, (Option.some.inj hgstart).symm⟩
  · intro k
    rw [hf.tokens, hg.tokens, Array.getElem?_extract, Array.getElem?_extract]
    have hsize : (Source.ofText name text).words.size = (Source.ofText name' text').words.size :=
      hforall.length_eq
    rw [hsize]
    split
    · exact hwords _
    · exact .none
  · rw [hf.previous, hg.previous]
    split
    · exact .none
    · exact hwords _
  · rw [hf.next, hg.next]
    exact hwords _

theorem directive_rel (hsame : SameLexemes text text') {name name' : String} {k : Nat}
    (ht : (Source.ofText name text).directives[k]? = some t)
    (hu : (Source.ofText name' text').directives[k]? = some u) :
    ((Source.ofText name text).directiveFragment t).Like (TwinSpots text text')
      ((Source.ofText name' text').directiveFragment u) := by
  have htwin : Twin text text' t u := by
    have h := array_getElem?_rel (directives_forall₂ hsame name name') k
    rw [ht, hu] at h
    cases h with
    | some htwin => exact htwin
  refine Fragment.like_of_twins hsame rfl rfl ?_ ⟨t, u, htwin, rfl, rfl⟩ ?_ .none .none
  · intro _
    exact congrArg Lexeme.text (htwin.toLexeme_eq hsame)
  · intro k
    cases k with
    | zero => exact .some htwin
    | succ k => exact .none

theorem fragments_like (hsame : SameLexemes text text') (name name' : String) :
    List.Forall₂ (Fragment.Like (TwinSpots text text')) (scan name text).fragments
      (scan name' text').fragments := by
  have hcuts : cutsOfText text' = cutsOfText text := congrArg cutsOf hsame.symm
  show List.Forall₂ _ ((cutsOfText text).filterMap _) ((cutsOfText text').filterMap _)
  rw [hcuts]
  refine List.rel_filterMap (R := fun cut cut' => cut = cut' ∧ cut ∈ cutsOfText text) ?_
    (List.forall₂_same.2 fun cut hcut => ⟨rfl, hcut⟩)
  rintro cut _ ⟨rfl, hcut⟩
  obtain ⟨f, hf, hcase⟩ := Source.fragment?_of_mem_cuts name hcut
  obtain ⟨g, hg, hcase'⟩ := Source.fragment?_of_mem_cuts name' (hcuts.symm ▸ hcut)
  rw [hf, hg]
  refine .some ?_
  rcases hcase with ⟨k, t, rfl, ht, rfl⟩ | ⟨kind, first, last, context, rfl, hspan, hwindow, hrest⟩
  · rcases hcase' with ⟨k', u, heq, hu, rfl⟩ | ⟨_, _, _, _, heq, -⟩
    · cases heq
      exact directive_rel hsame ht hu
    · cases heq
  · rcases hcase' with ⟨_, _, heq, -⟩ | ⟨_, _, _, _, heq, -, hwindow', hrest'⟩
    · cases heq
    · cases heq
      exact window_rel hsame hspan hwindow hwindow' hrest.1 hrest'.1
        (hrest.2.1.trans hrest'.2.1.symm)

end Tokens

/-! ## Reports -/

section Reports

variable {text text' : String}

/-- The order of findings, seen from their anchors. -/
def AnchorLe (x y : String × Option Nat) : Prop :=
  ∃ j k, x.2 = some j ∧ y.2 = some k ∧
    (j < k ∨ j = k ∧ standardCatalog.rank x.1 ≤ standardCatalog.rank y.1)

theorem anchorLe_antisymm {x y : String × Option Nat} (hx : standardCatalog.contains x.1 = true)
    (hxy : AnchorLe x y) (hyx : AnchorLe y x) : x = y := by
  obtain ⟨j, k, hj, hk, hle⟩ := hxy
  obtain ⟨k', j', hk', hj', hle'⟩ := hyx
  rw [hj] at hj'
  rw [hk] at hk'
  cases hj'
  cases hk'
  have hrank : standardCatalog.rank x.1 = standardCatalog.rank y.1 := by omega
  refine Prod.ext (Catalog.eq_of_rank_eq hx hrank) ?_
  rw [hj, hk]
  exact congrArg some (by omega)

def Anchored (text : String) (m : Match) : Prop :=
  ∃ (j : Nat) (t : Token), (tokens text.toList)[j]? = some t ∧ m.offset = t.start.offset

theorem anchorLe_of_findingLe {a b : Match} (ha : Anchored text a) (hb : Anchored text b)
    (h : standardCatalog.findingLe a b = true) : AnchorLe (anchor text a) (anchor text b) := by
  obtain ⟨j, t, ht, hat⟩ := ha
  obtain ⟨k, u, hu, hbu⟩ := hb
  refine ⟨j, k, ?_, ?_, ?_⟩
  · show tokenAt? text a.offset = _
    rw [hat]
    exact tokenAt?_start ht
  · show tokenAt? text b.offset = _
    rw [hbu]
    exact tokenAt?_start hu
  · rw [Catalog.findingLe_iff, hat, hbu] at h
    have hlt := start_lt_iff ht hu
    have hgt := start_lt_iff hu ht
    show _ ∨ _ ∧ standardCatalog.rank a.feature ≤ standardCatalog.rank b.feature
    omega

theorem anchor_eq_of_like {a b : Match} (h : a.Like (TwinSpots text text') b) :
    anchor text a = anchor text' b := by
  obtain ⟨j, hj, hj'⟩ := h.spot.tokenAt?
  exact Prod.ext h.feature (hj.trans hj'.symm)

theorem anchored_left {a b : Match} (h : a.Like (TwinSpots text text') b) : Anchored text a := by
  obtain ⟨t, u, ⟨j, ht, hu⟩, hs, hs'⟩ := h.spot
  exact ⟨j, t, ht, hs⟩

theorem anchored_right {a b : Match} (h : a.Like (TwinSpots text text') b) : Anchored text' b := by
  obtain ⟨t, u, ⟨j, ht, hu⟩, hs, hs'⟩ := h.spot
  exact ⟨j, u, hu, hs'⟩

theorem pairwise_anchorLe {ms : List Match} (h : ∀ m ∈ ms, Anchored text m) :
    (ms.mergeSort standardCatalog.findingLe).Pairwise fun a b =>
      AnchorLe (anchor text a) (anchor text b) := by
  refine List.Pairwise.imp_of_mem ?_ (List.pairwise_mergeSort Catalog.findingLe_trans
    Catalog.findingLe_total ms)
  intro a b ha hb hle
  exact anchorLe_of_findingLe (h a (List.mem_mergeSort.1 ha)) (h b (List.mem_mergeSort.1 hb)) hle

theorem exists_left {α β : Type} {R : α → β → Prop} {l : List α} {l' : List β}
    (h : List.Forall₂ R l l') {a : α} (ha : a ∈ l) : ∃ b ∈ l', R a b := by
  induction h with
  | nil => simp at ha
  | cons hab _ ih =>
      rcases List.mem_cons.1 ha with rfl | ha
      · exact ⟨_, List.mem_cons_self, hab⟩
      · obtain ⟨b, hb, hR⟩ := ih ha
        exact ⟨b, List.mem_cons_of_mem _ hb, hR⟩

/-- Corresponding matches are found at the same anchors in the same order. -/
theorem anchors_mergeSort {ms ms' : List Match}
    (h : List.Forall₂ (Match.Like (TwinSpots text text')) ms ms')
    (hknown : ∀ m ∈ ms, standardCatalog.contains m.feature = true) :
    (ms.mergeSort standardCatalog.findingLe).map (anchor text)
      = (ms'.mergeSort standardCatalog.findingLe).map (anchor text') := by
  have hmap : ms.map (anchor text) = ms'.map (anchor text') := by
    rw [← List.forall₂_eq_eq_eq, List.forall₂_map_left_iff, List.forall₂_map_right_iff]
    exact h.imp fun a b hab => anchor_eq_of_like hab
  have hperm : ((ms.mergeSort standardCatalog.findingLe).map (anchor text)).Perm
      ((ms'.mergeSort standardCatalog.findingLe).map (anchor text')) :=
    ((List.mergeSort_perm ms _).map _).trans
      (hmap ▸ ((List.mergeSort_perm ms' _).map _).symm)
  have hleft : ∀ m ∈ ms, Anchored text m := by
    intro m hm
    obtain ⟨m', -, hlike⟩ := exists_left h hm
    exact anchored_left hlike
  have hright : ∀ m ∈ ms', Anchored text' m := by
    intro m hm
    obtain ⟨m', -, hlike⟩ := exists_left h.flip hm
    exact anchored_right hlike
  refine map_eq_of_perm hperm (pairwise_anchorLe hleft) (pairwise_anchorLe hright) ?_
  intro a ha b _ hab hba
  exact anchorLe_antisymm (hknown a (List.mem_mergeSort.1 ha)) hab hba

/-- Corresponding notes are in the same order. -/
theorem notes_mergeSort {ns ns' : List Note}
    (h : List.Forall₂ (Note.Like (TwinSpots text text')) ns ns') :
    List.Forall₂ (Note.Like (TwinSpots text text')) (ns.mergeSort standardCatalog.noteLe)
      (ns'.mergeSort standardCatalog.noteLe) := by
  refine mergeSort_rel (fun {a a' b b'} ha hb => ?_) h
  rw [Bool.eq_iff_iff, Catalog.noteLe_iff, Catalog.noteLe_iff, twinSpots_lt_iff ha.spot hb.spot,
    twinSpots_eq_iff ha.spot hb.spot, ha.feature, hb.feature]

/-- Two layouts of one file are classified alike: they require the same standard, the same
features are counted, the findings are at the same tokens in the same order, and the notes say
the same. -/
theorem classifyText_of_same_lexemes {disabled : List String}
    (hdisabled : ∀ id ∈ disabled, standardCatalog.contains id = true) (name name' : String)
    (floor : Int) (hsame : SameLexemes text text') :
    ∃ r r', classifyText name text standardCatalog floor disabled = .ok r ∧
      classifyText name' text' standardCatalog floor disabled = .ok r' ∧
      r.required = r'.required ∧
      r.classification.byFeature = r'.classification.byFeature ∧
      r.classification.findings.map (anchor text) = r'.classification.findings.map (anchor text') ∧
      (∀ m ∈ r.classification.findings, (tokenAt? text m.offset).isSome = true) ∧
      r.notes.map (fun n => (n.feature, n.reason, n.candidates))
        = r'.notes.map (fun n => (n.feature, n.reason, n.candidates)) := by
  have hlike := Dispatcher.run_like disabled (fragments_like hsame name name')
  have hanchors := anchors_mergeSort hlike.found fun m hm => Dispatcher.contains_of_mem_run hm
  have hnotes := notes_mergeSort hlike.notes
  have hids : ∀ ms ms' : List Match, ms.map (anchor text) = ms'.map (anchor text') →
      ms.map (·.feature) = ms'.map (·.feature) := by
    intro ms ms' h
    have := congrArg (List.map Prod.fst) h
    simpa [Function.comp_def, anchor] using this
  refine ⟨_, _, classifyText_standard hdisabled name text floor,
    classifyText_standard hdisabled name' text' floor, ?_, ?_, hanchors, ?_, ?_⟩
  · show (standardCatalog.newest? _).getD floor = (standardCatalog.newest? _).getD floor
    rw [hids _ _ hanchors]
  · show standardCatalog.tally _ = standardCatalog.tally _
    rw [hids _ _ hanchors]
  · intro m hm
    obtain ⟨m', -, hm'⟩ := exists_left hlike.found (List.mem_mergeSort.1 hm)
    obtain ⟨j, hj, -⟩ := hm'.spot.tokenAt?
    exact Option.isSome_iff_exists.2 ⟨j, hj⟩
  · rw [← List.forall₂_eq_eq_eq, List.forall₂_map_left_iff, List.forall₂_map_right_iff]
    refine hnotes.imp ?_
    intro a b hab
    rw [hab.feature, hab.reason, hab.candidates]

/-- A comment and a line end in the middle of a declaration. -/
theorem classifyText_of_same_lexemes_literal :
    (∀ id ∈ ["elifdef-directive"], standardCatalog.contains id = true) ∧
      SameLexemes "auto n=1z;" "auto/**/n =\n1z ;" ∧
      ∃ r r', classifyText "a" "auto n=1z;" standardCatalog 20 ["elifdef-directive"] = .ok r ∧
        classifyText "b" "auto/**/n =\n1z ;" standardCatalog 20 ["elifdef-directive"] = .ok r' ∧
        r.required = r'.required ∧
        r.classification.findings.map (anchor "auto n=1z;")
          = r'.classification.findings.map (anchor "auto/**/n =\n1z ;") := by
  have hdisabled : ∀ id ∈ ["elifdef-directive"], standardCatalog.contains id = true := by
    decide +kernel
  have hsame : SameLexemes "auto n=1z;" "auto/**/n =\n1z ;" := by
    unfold SameLexemes
    decide +kernel
  obtain ⟨r, r', hr, hr', hrequired, -, hanchors, -⟩ :=
    classifyText_of_same_lexemes hdisabled "a" "b" 20 hsame
  exact ⟨hdisabled, hsame, r, r', hr, hr', hrequired, hanchors⟩

end Reports

end CxxFloor
