/-
# The fragments of two texts in a row

Behind complete declarations the fragments of a text are cut again, each moved
by the characters and the lines before it (`Fragment.Moved`).  They are judged
as before: what comes to stand before the first of them is a semicolon, and no
feature makes anything of that (`Fragment.Moved.like`).  The fragments of the
declarations stay as they are, since none of them ends with the last semicolon
and so each has its next token in the same text (`StepCut.visible`).
Together: the fragments of both texts are those of the first and the moved
ones of the second (`CompleteText.fragments_append`).
-/
import CxxFloor.Proofs.Embedding.Concatenation
import CxxFloor.Proofs.Feature.Correspondence
import CxxFloor.Proofs.Token.Concatenation

namespace CxxFloor

/-! ## Moved fragments -/

def Spot.shift (n l : Nat) (s : Spot) : Spot :=
  { s with line := s.line + l, offset := s.offset + n }

/-- `g` is the fragment `f` moved on by `n` characters and `l` lines.  Where nothing stood before
`f`, a semicolon may stand before `g`. -/
structure Fragment.Moved (n l : Nat) (f g : Fragment) : Prop where
  kind : g.kind = f.kind
  start : g.start = f.start.shift n l
  text : g.text = f.text
  tokens : g.tokens = f.tokens.map (Token.shift n l)
  previous : g.previous = f.previous.map (Token.shift n l) ∨
    f.previous = none ∧ ∃ t, g.previous = some t ∧ t.isPunct ";" = true
  next : g.next = f.next.map (Token.shift n l)
  context : g.context = f.context

namespace Fragment.Moved

variable {n l : Nat} {f g : Fragment}

theorem whole (h : f.Moved n l g) : g.whole = f.whole.shift n l := by
  simp [Fragment.whole, h.start, h.text, Spot.shift, Position.shift]

theorem textBetween (h : f.Moved n l g) (start stop : Nat) :
    g.textBetween (start + n) (stop + n) = f.textBetween start stop := by
  rw [Fragment.textBetween, Fragment.textBetween, h.text, h.start, Position.shift,
    Nat.add_sub_add_right, Nat.add_sub_add_right]

theorem spot (h : f.Moved n l g) (span : Option Span) : g.spot span = (f.spot span).shift n l := by
  cases span with
  | none => exact h.whole
  | some span =>
      rw [Fragment.spot, Fragment.spot, h.tokens, Array.getElem?_map, Array.getElem?_map]
      cases f.tokens[span.first]? with
      | none => exact h.whole
      | some t =>
          cases f.tokens[span.last]? with
          | none => exact h.whole
          | some u =>
              have htext := h.textBetween t.start.offset u.stop
              simp only [Option.map_some, Token.shift, Position.shift, Spot.shift, htext]
              simp

theorem map_toLexeme (o : Option Token) :
    (o.map (Token.shift n l)).map (·.toLexeme) = o.map (·.toLexeme) := by
  rw [Option.map_map]
  rfl

/-- What is not true of a semicolon is true of the token before the one fragment if it is of that
before the other. -/
theorem any_previous (h : f.Moved n l g) {p : Lexeme → Bool}
    (hp : ∀ t : Lexeme, t.isPunct ";" = true → p t = false) :
    f.view.previous.any p = g.view.previous.any p := by
  show (f.previous.map (·.toLexeme)).any p = (g.previous.map (·.toLexeme)).any p
  rcases h.previous with hsame | ⟨hnone, t, hsome, ht⟩
  · rw [hsame, map_toLexeme]
  · rw [hnone, hsome]
    exact (hp t.toLexeme ht).symm

theorem like (h : f.Moved n l g) : f.Like (fun s s' => s' = s.shift n l) g := by
  have hlexemes : f.view.lexemes = g.view.lexemes := by
    show f.tokens.map (·.toLexeme) = g.tokens.map (·.toLexeme)
    rw [h.tokens, Array.map_map]
    rfl
  have hnext : f.view.next = g.view.next := by
    show f.next.map (·.toLexeme) = g.next.map (·.toLexeme)
    rw [h.next, map_toLexeme]
  have htype : f.view.previous.any View.marksType = g.view.previous.any View.marksType := by
    refine h.any_previous ?_
    intro t ht
    simp only [Lexeme.isPunct, Bool.and_eq_true, beq_iff_eq] at ht
    rw [View.marksType, ht.2]
    decide
  have hspecifier : f.view.previous.any (·.isWordIn declarationSpecifiers) =
      g.view.previous.any (·.isWordIn declarationSpecifiers) := by
    refine h.any_previous ?_
    intro t ht
    simp only [Lexeme.isPunct, Bool.and_eq_true, beq_iff_eq] at ht
    simp [Lexeme.isWordIn, ht.1]
  exact ⟨⟨h.kind.symm, hlexemes, fun _ => h.text.symm, htype, hspecifier, hnext, h.context.symm⟩,
    h.spot⟩

end Fragment.Moved

/-! ## Parts of texts in a row -/

theorem Text.slice_append_left {cs ds : List Char} {start stop : Nat} (h : stop ≤ cs.length) :
    slice (cs ++ ds) start stop = slice cs start stop := by
  rw [slice, slice, List.drop_append, List.take_append_of_le_length]
  rw [List.length_drop]
  exact Nat.sub_le_sub_right h start

theorem Text.slice_append_right {cs ds : List Char} (start stop : Nat) :
    slice (cs ++ ds) (start + cs.length) (stop + cs.length) = slice ds start stop := by
  rw [slice, slice, Nat.add_sub_add_right, Nat.add_comm start, List.drop_length_add_append]

theorem getElem?_append_map {α : Type} (xs ys : Array α) (f : α → α) (k : Nat) :
    (xs ++ ys.map f)[xs.size + k]? = ys[k]?.map f := by
  rw [Array.getElem?_append_right (Nat.le_add_right _ _), Nat.add_sub_cancel_left,
    Array.getElem?_map]

/-! ## Texts in a row -/

def lineEnds (text : String) : Nat := text.toList.count '\n'

/-- A text of complete declarations: its tokens and brackets are in order, it starts with a word,
preprocessor lines apart, and ends with a semicolon and a line end right behind it, and no
`requires` is in it. -/
structure CompleteText (text : String) : Prop where
  intact : ∀ name, (scan name text).diagnostics = []
  first : ∃ t, (tokens text.toList).find? (fun t => decide (t.kind ≠ .directive)) = some t ∧
    t.isName = true
  unconstrained : ∀ t ∈ tokens text.toList, t.isWord "requires" = false
  ends : EndsStatement text.toList

/-- A text that does not depend on complete declarations before it: it starts with a word,
preprocessor lines apart, if with anything, and asks for no size or alignment. -/
structure FollowingText (text : String) : Prop where
  first : ∀ t, (tokens text.toList).find? (fun t => decide (t.kind ≠ .directive)) = some t →
    t.isName = true
  unqueried : ∀ t ∈ tokens text.toList, t.isWordIn sizeQueries = false

theorem lexemes_ofLexemes (name text : String) :
    (Sheet.ofLexemes ((tokens text.toList).map (·.toLexeme))).lexemes =
      (Source.ofText name text).words.toList.map (·.toLexeme) := by
  rw [Sheet.ofLexemes, Sheet.lexemes_sortFrom, Source.words_toList, List.filter_map]
  rfl

theorem head?_words (name text : String) :
    ((Source.ofText name text).words.toList.map (·.toLexeme)).head? =
      ((tokens text.toList).find? fun t => decide (t.kind ≠ .directive)).map (·.toLexeme) := by
  rw [List.head?_map, Source.words_toList, List.head?_filter]

theorem FollowingText.startsWithWord {text : String} (h : FollowingText text) :
    StartsWithWord (Sheet.ofLexemes ((tokens text.toList).map (·.toLexeme))).lexemes := by
  intro t ht
  rw [lexemes_ofLexemes "", head?_words, Option.map_eq_some_iff] at ht
  obtain ⟨u, hu, rfl⟩ := ht
  exact h.first u hu

theorem FollowingText.unqueried_lexemes {text : String} (h : FollowingText text) :
    ∀ t ∈ (Sheet.ofLexemes ((tokens text.toList).map (·.toLexeme))).lexemes,
      t.isWordIn sizeQueries = false := by
  intro t ht
  rw [lexemes_ofLexemes "", Source.words_toList] at ht
  obtain ⟨u, hu, rfl⟩ := List.mem_map.1 ht
  exact h.unqueried u (List.mem_filter.1 hu).1

namespace CompleteText

variable {a : String}

theorem tokenDiagnostics_eq_nil (h : CompleteText a) : tokenDiagnostics a.toList = [] :=
  (List.append_eq_nil_iff.1 (h.intact "")).1

theorem bracketDiagnostics_eq_nil (h : CompleteText a) (name : String) :
    bracketDiagnostics (Source.ofText name a).words.toList = [] :=
  (List.append_eq_nil_iff.1 (h.intact name)).2

theorem faults_eq_nil (h : CompleteText a) : faults a.toList = [] :=
  List.map_eq_nil_iff.1 h.tokenDiagnostics_eq_nil

theorem getLast?_words (h : CompleteText a) (name : String) :
    ∃ t, (Source.ofText name a).words.toList.getLast? = some t ∧ t.isPunct ";" = true := by
  obtain ⟨t, hlast, hp, -, -⟩ := h.ends
  obtain ⟨ts, hts⟩ := List.getLast?_eq_some_iff.1 hlast
  have hkind : t.kind ≠ .directive := by
    simp only [Lexeme.isPunct, Bool.and_eq_true, beq_iff_eq] at hp
    rw [hp.1]
    decide
  refine ⟨t, ?_, hp⟩
  rw [Source.words_toList, hts, List.filter_append]
  simp [hkind]

theorem complete (h : CompleteText a) :
    Complete (Sheet.ofLexemes ((tokens a.toList).map (·.toLexeme))).lexemes := by
  rw [lexemes_ofLexemes ""]
  refine ⟨allOrphans_eq_nil (h.bracketDiagnostics_eq_nil ""), ?_, ?_, ?_⟩
  · obtain ⟨t, ht, hname⟩ := h.first
    refine ⟨t.toLexeme, ?_, hname⟩
    rw [head?_words, ht]
    rfl
  · obtain ⟨t, ht, hp⟩ := h.getLast?_words ""
    refine ⟨t.toLexeme, ?_, hp⟩
    rw [List.getLast?_map, ht]
    rfl
  · intro t ht
    obtain ⟨u, hu, rfl⟩ := List.mem_map.1 ht
    rw [Source.words_toList] at hu
    exact h.unconstrained u (List.mem_filter.1 hu).1

/-! ### The sources -/

section Sources

variable (h : CompleteText a) (name b : String)
include h

theorem tokens_append : tokens (a ++ b).toList =
    tokens a.toList ++ (tokens b.toList).map (Token.shift a.length (lineEnds a)) := by
  rw [String.toList_append, CxxFloor.tokens_append h.ends h.faults_eq_nil, String.length_toList]
  rfl

theorem words_append : (Source.ofText name (a ++ b)).words =
    (Source.ofText name a).words ++
      (Source.ofText name b).words.map (Token.shift a.length (lineEnds a)) := by
  apply Array.toList_inj.1
  rw [Array.toList_append, Array.toList_map, Source.words_toList, h.tokens_append,
    List.filter_append, List.filter_map]
  rfl

theorem directives_append : (Source.ofText name (a ++ b)).directives =
    (Source.ofText name a).directives ++
      (Source.ofText name b).directives.map (Token.shift a.length (lineEnds a)) := by
  apply Array.toList_inj.1
  rw [Array.toList_append, Array.toList_map, Source.directives_toList, h.tokens_append,
    List.filter_append, List.filter_map]
  rfl

theorem words_last : 0 < (Source.ofText name a).words.size ∧
    ∃ t, (Source.ofText name (a ++ b)).words[(Source.ofText name a).words.size - 1]? = some t ∧
      t.isPunct ";" = true := by
  obtain ⟨t, ht, hp⟩ := h.getLast?_words name
  rw [List.getLast?_eq_getElem?, Array.getElem?_toList, Array.length_toList] at ht
  have hlt := (Array.getElem?_eq_some_iff.1 ht).1
  refine ⟨Nat.zero_lt_of_lt hlt, t, ?_, hp⟩
  rw [h.words_append, Array.getElem?_append_left hlt, ht]

theorem cutsOfText_append {b : String} (hb : FollowingText b) :
    cutsOfText (a ++ b) = cutsOfText a ++
      (cutsOfText b).map (Cut.shift (Source.ofText name a).words.size
        (Source.ofText name a).directives.size) := by
  have hwords : (Sheet.ofLexemes ((tokens a.toList).map (·.toLexeme))).lexemes.length =
      (Source.ofText name a).words.size := by
    rw [lexemes_ofLexemes name, List.length_map, Array.length_toList]
  have hdirectives : (Sheet.ofLexemes ((tokens a.toList).map (·.toLexeme))).directives.length =
      (Source.ofText name a).directives.size := by
    rw [Source.size_directives, Sheet.ofLexemes, Sheet.length_directives_sortFrom]
  have hlast : ∃ t, ((tokens a.toList).map (·.toLexeme)).getLast? = some t ∧
      t.kind ≠ .directive := by
    obtain ⟨t, ht, hp, -, -⟩ := h.ends
    refine ⟨t.toLexeme, by rw [List.getLast?_map, ht]; rfl, ?_⟩
    simp only [Lexeme.isPunct, Bool.and_eq_true, beq_iff_eq] at hp
    rw [hp.1]
    decide
  have hmoved : ((tokens b.toList).map (Token.shift a.length (lineEnds a))).map (·.toLexeme) =
      (tokens b.toList).map (·.toLexeme) := by
    rw [List.map_map]
    rfl
  rw [cutsOfText, h.tokens_append, List.map_append, hmoved,
    cutsOf_append h.complete hlast hb.startsWithWord hb.unqueried_lexemes, hwords, hdirectives]
  rfl

/-! ### The fragments -/

/-- A run of tokens that stops before the last semicolon is the same whatever follows. -/
theorem fragment?_span_left {first last : Nat} (hle : first ≤ last)
    (hlt : last + 1 < (Source.ofText name a).words.size) (kind : FragmentKind)
    (context : Context) : (Source.ofText name (a ++ b)).fragment? (.span kind first last context) =
      (Source.ofText name a).fragment? (.span kind first last context) := by
  have hget : ∀ k, k ≤ last + 1 → (Source.ofText name (a ++ b)).words[k]? =
      (Source.ofText name a).words[k]? := by
    intro k hk
    rw [h.words_append, Array.getElem?_append_left (Nat.lt_of_le_of_lt hk hlt)]
  have hextract : (Source.ofText name (a ++ b)).words.extract first (last + 1) =
      (Source.ofText name a).words.extract first (last + 1) := by
    rw [h.words_append, Array.extract_append, Nat.sub_eq_zero_of_le (Nat.le_of_lt hlt)]
    simp
  simp only [Source.fragment?, hget first (by omega), hget last (by omega),
    hget (first - 1) (by omega), hget (last + 1) (Nat.le_refl _), hextract]
  cases (Source.ofText name a).words[first]? with
  | none => rfl
  | some t =>
      cases hu : (Source.ofText name a).words[last]? with
      | none => rfl
      | some u =>
          have htext : Text.slice (a ++ b).toList t.start.offset u.stop =
              Text.slice a.toList t.start.offset u.stop := by
            rw [String.toList_append]
            exact Text.slice_append_left (stop_le_length (Source.mem_tokens_of_words hu).1)
          simp only [bind, Option.bind, pure]
          rw [Source.ofText, Source.ofText]
          dsimp only
          rw [htext]

/-- A fragment of complete declarations is the same whatever follows them. -/
theorem fragment?_left {cut : Cut} (hcut : cut ∈ cutsOfText a) :
    (Source.ofText name (a ++ b)).fragment? cut = (Source.ofText name a).fragment? cut := by
  rcases of_mem_cutsOf hcut with ⟨k, hk, rfl⟩ | ⟨kind, first, last, context, rfl, i, s, hi, -, hstep⟩
  · rw [← Source.size_directives name a] at hk
    rw [Source.fragment?, Source.fragment?, h.directives_append, Array.getElem?_append_left hk]
    rfl
  · have hle : first ≤ last := (hstep.range (Bracketed.nested_ofLexemes _) hi).1
    have hlt : last + 1 < (Source.ofText name a).words.size := by
      have := h.complete.lt_of_stepCut hstep hi
      rwa [lexemes_ofLexemes name, List.length_map, Array.length_toList] at this
    exact h.fragment?_span_left name b hle hlt kind context

/-- A preprocessor line of what follows is moved behind the declarations. -/
theorem fragment?_directive_shift (number : Nat) :
    Option.Rel (Fragment.Moved a.length (lineEnds a))
      ((Source.ofText name b).fragment? (.directive number))
      ((Source.ofText name (a ++ b)).fragment?
        (.directive ((Source.ofText name a).directives.size + number))) := by
  rw [Source.fragment?, Source.fragment?, h.directives_append, getElem?_append_map]
  cases (Source.ofText name b).directives[number]? with
  | none => exact .none
  | some t => exact .some ⟨rfl, rfl, rfl, by simp [Source.directiveFragment], Or.inl rfl, rfl, rfl⟩

/-- A run of tokens of what follows is moved behind the declarations. -/
theorem fragment?_span_shift (kind : FragmentKind) (first last : Nat) (context : Context) :
    Option.Rel (Fragment.Moved a.length (lineEnds a))
      ((Source.ofText name b).fragment? (.span kind first last context))
      ((Source.ofText name (a ++ b)).fragment?
        (.span kind ((Source.ofText name a).words.size + first)
          ((Source.ofText name a).words.size + last) context)) := by
  have hget : ∀ k, (Source.ofText name (a ++ b)).words[(Source.ofText name a).words.size + k]? =
      (Source.ofText name b).words[k]?.map (Token.shift a.length (lineEnds a)) := by
    intro k
    rw [h.words_append, getElem?_append_map]
  have hextract : (Source.ofText name (a ++ b)).words.extract
      ((Source.ofText name a).words.size + first) ((Source.ofText name a).words.size + last + 1) =
      ((Source.ofText name b).words.extract first (last + 1)).map
        (Token.shift a.length (lineEnds a)) := by
    rw [h.words_append, Array.extract_append,
      Array.extract_empty_of_size_le_start (Nat.le_add_right _ _), Nat.add_assoc,
      Nat.add_sub_cancel_left, Nat.add_sub_cancel_left, Array.map_extract, Array.empty_append]
  have hslice : ∀ start stop, Text.slice (a ++ b).toList (start + a.length) (stop + a.length) =
      Text.slice b.toList start stop := by
    intro start stop
    rw [String.toList_append, ← String.length_toList]
    exact Text.slice_append_right start stop
  rw [Source.fragment?, Source.fragment?, hget, hget]
  cases (Source.ofText name b).words[first]? with
  | none => exact .none
  | some t =>
      cases (Source.ofText name b).words[last]? with
      | none => exact .none
      | some u =>
          refine .some ⟨rfl, rfl, hslice _ _, hextract, ?_, hget (last + 1), rfl⟩
          cases first with
          | zero =>
              -- the declarations end with a semicolon, and nothing stood before
              obtain ⟨hpos, v, hv, hp⟩ := h.words_last name b
              exact Or.inr ⟨rfl, v, (if_neg (Nat.ne_of_gt hpos)).trans hv, hp⟩
          | succ k => exact Or.inl (hget k)

/-- A fragment of what follows is moved behind the declarations. -/
theorem fragment?_shift (cut : Cut) :
    Option.Rel (Fragment.Moved a.length (lineEnds a)) ((Source.ofText name b).fragment? cut)
      ((Source.ofText name (a ++ b)).fragment? (cut.shift (Source.ofText name a).words.size
        (Source.ofText name a).directives.size)) := by
  cases cut with
  | directive number => exact h.fragment?_directive_shift name b number
  | span kind first last context => exact h.fragment?_span_shift name b kind first last context

theorem fragments_append {b : String} (hb : FollowingText b) :
    ∃ gs, (scan name (a ++ b)).fragments = (scan name a).fragments ++ gs ∧
      List.Forall₂ (Fragment.Moved a.length (lineEnds a)) (scan name b).fragments gs := by
  have hfragments : ∀ text, (scan name text).fragments =
      (cutsOfText text).filterMap (Source.ofText name text).fragment? := fun text => rfl
  let moved : Cut → Cut :=
    Cut.shift (Source.ofText name a).words.size (Source.ofText name a).directives.size
  refine ⟨(cutsOfText b).filterMap fun cut => (Source.ofText name (a ++ b)).fragment? (moved cut),
    ?_, ?_⟩
  · rw [hfragments, hfragments, h.cutsOfText_append name hb, List.filterMap_append,
      List.filterMap_map, List.filterMap_congr fun cut hcut => h.fragment?_left name b hcut]
    rfl
  · refine List.rel_filterMap (R := Eq) ?_ (List.forall₂_same.2 fun cut _ => rfl)
    rintro cut _ rfl
    exact h.fragment?_shift name b cut

end Sources

end CompleteText

end CxxFloor
