/-
# Looking ahead for the body of a lambda

Behind the parameters of a lambda the look ahead goes from token to token, whole
groups in parentheses and square brackets passed over, until it meets a brace.
What one of its steps can do is said once (`Bracketed.lambdaBody?_cases`).  It
gives up at every closing bracket, so it never leaves a group that it starts in
(`Bracketed.Nested.lt_of_lambdaBody?`): a body that is found from inside a group
opens inside it.

What a look ahead that found a body came through is said once as well
(`Bracketed.lambdaAhead_cases`): the introducer, the template parameters with
their constraint, the parameters if there are any, and the way to the brace.
Every lambda that is a fragment has been looked ahead of in this way, and ends
right before the brace that was found (`Source.exists_lambda`).
-/
import CxxFloor.Proofs.Scope.Origin

namespace CxxFloor

namespace Bracketed

variable {b : Bracketed} {i j p q steps : Nat} {arrow constant : Bool} {r : Nat × Bool}

/-! ## The way to the brace -/

theorem punctInAt_pair (s s' : String) :
    b.punctInAt j [s, s'] = (b.punctAt j s || b.punctAt j s') := by
  unfold punctInAt punctAt
  cases b.at? j with
  | none => rfl
  | some t =>
      simp only [Option.any_some, Lexeme.isPunctIn, Lexeme.isPunct, List.contains_cons,
        List.contains_nil, Bool.or_false, Bool.and_or_distrib_left]

theorem not_closesAt {t : Lexeme} {k : Bracket} (ht : b.at? j = some t)
    (h : ¬ (t.kind = .punctuator ∧ t.text ∈ [")", "]", "\x7d"])) : ¬ b.closesAt j k := by
  intro hk
  obtain ⟨u, hu, hpunct⟩ := punctAt_iff.1 (punctAt_of_closesAt hk)
  obtain rfl := Option.some.inj (ht.symm.trans hu)
  simp only [Lexeme.isPunct, Bool.and_eq_true, beq_iff_eq] at hpunct
  refine h ⟨hpunct.1, ?_⟩
  rw [hpunct.2]
  cases k <;> simp [Bracket.closer]

/-- What a step of a look ahead that finds a body does: it has come to the brace, passes over a
group, or goes on behind a token that closes no bracket. -/
theorem lambdaBody?_cases (h : b.lambdaBody? (steps + 1) j arrow constant = some r) :
    (b.punctAt j "\x7b" = true ∧ r.1 = j) ∨
    (∃ c, b.operandEnd? j = some c ∧ b.lambdaBody? steps (c + 1) arrow constant = some r) ∨
    (∀ k, ¬ b.closesAt j k) ∧
      ∃ arrow' constant', b.lambdaBody? steps (j + 1) arrow' constant' = some r := by
  unfold lambdaBody? at h
  split at h
  · cases h
  next t ht =>
  split at h
  next hbrace =>
    cases h
    exact .inl ⟨punctAt_iff.2 ⟨t, ht, hbrace⟩, rfl⟩
  split at h
  next hkind =>
    have hpunct : t.kind = .punctuator := by simpa using hkind
    split at h
    next c hc => exact .inr (.inl ⟨c, hc, h⟩)
    split at h
    next harrow =>
      have htext : t.text = "->" := by simpa [Lexeme.isPunct, hpunct] using harrow
      exact .inr (.inr ⟨fun k => not_closesAt ht (by simp [htext]), _, _, h⟩)
    split at h
    · cases h
    next hstop =>
    split at h
    · cases h
    · refine .inr (.inr ⟨fun k => not_closesAt ht fun hclose => hstop ?_, _, _, h⟩)
      have := hclose.2
      simp only [List.mem_cons, List.not_mem_nil, or_false] at this
      rcases this with htext | htext | htext <;> simp [Lexeme.isPunctIn, hpunct, htext]
  next hkind =>
    split at h
    · have hpunct : t.kind ≠ .punctuator := by simpa using hkind
      exact .inr (.inr ⟨fun k => not_closesAt ht fun hclose => hpunct hclose.1, _, _, h⟩)
    · cases h

theorem lambdaBody?_brace (hbrace : b.punctAt j "\x7b" = true) :
    b.lambdaBody? (steps + 1) j arrow constant = some (j, constant) := by
  obtain ⟨t, ht, hpunct⟩ := punctAt_iff.1 hbrace
  simp [lambdaBody?, ht, hpunct]

theorem eq_of_lambdaBody?_brace (hbrace : b.punctAt j "\x7b" = true)
    (h : b.lambdaBody? steps j arrow constant = some r) : r.1 = j := by
  cases steps with
  | zero => cases h
  | succ steps =>
      rw [lambdaBody?_brace hbrace] at h
      cases h
      rfl

namespace Nested

theorem lt_of_lambdaBody? (hb : b.Nested) (hpq : b.closer? p = some q) (hpj : p < j) (hjq : j ≤ q)
    (h : b.lambdaBody? steps j arrow constant = some r) : r.1 < q := by
  have hpartner := partner?_of_closer? hpq
  obtain ⟨kind, -, hclose⟩ := hb.matched hpartner (Pairing.lt_of_closer? hpq)
  induction steps generalizing j arrow constant with
  | zero => cases h
  | succ steps ih =>
      rcases lambdaBody?_cases h with ⟨hbrace, hr⟩ | ⟨c, hc, h⟩ | ⟨hstay, _, _, h⟩
      · have hne : j ≠ q := by
          rintro rfl
          exact not_opensAt_of_closesAt hclose (opensAt_of_punctAt (k := .curly) hbrace)
        omega
      · have hgroup := partner?_of_closer? (closer?_of_operandEnd? hc)
        have hlt := lt_of_operandEnd? hc
        have hne : j ≠ q := by
          rintro rfl
          have := hb.gt_of_closesAt hgroup hclose
          omega
        have := hb.inside hpartner hgroup hpj (by omega)
        exact ih (by omega) this.2 h
      · have hne : j ≠ q := by
          rintro rfl
          exact hstay kind hclose
        exact ih (by omega) (by omega) h

end Nested

/-! ## Template parameters -/

/-- The index behind the template parameters that start at index `j`, if any do. -/
def templateEnd (b : Bracketed) (j : Nat) : Nat :=
  if b.punctAt j "<" then (b.angleEnd? j).elim j (· + 1) else j

theorem le_templateEnd (b : Bracketed) (j : Nat) : j ≤ b.templateEnd j := by
  unfold templateEnd
  split
  next =>
    cases hc : b.angleEnd? j with
    | none => exact Nat.le_refl j
    | some c => exact Nat.le_succ_of_le (le_of_angleEnd? hc)
  next => exact Nat.le_refl j

/-- Template parameters start at index `j` and a constraint follows them. -/
def constrained (b : Bracketed) (j : Nat) : Bool :=
  b.punctAt j "<" && b.wordAt (b.templateEnd j) "requires"

/-- Up to the place that is looked for there is none of the punctuators; it holds one of them or is
the end. -/
theorem nextPunctIn_cases (hj : j ≤ b.size) (ss : List String) :
    (∀ k, j ≤ k → k < b.nextPunctIn j ss → b.punctInAt k ss = false) ∧
      (b.punctInAt (b.nextPunctIn j ss) ss = true ∨ b.nextPunctIn j ss = b.size) := by
  unfold nextPunctIn
  cases hfind : (List.range' j (b.size - j)).find? fun k => b.punctInAt k ss with
  | none =>
      have hend : max j b.size = b.size := Nat.max_eq_right hj
      simp only [Option.getD_none, hend]
      refine ⟨fun k hjk hk => ?_, .inr trivial⟩
      simpa using List.find?_range'_eq_none.1 hfind k hjk (by omega)
  | some n =>
      obtain ⟨hn, -, hbefore⟩ := List.find?_range'_eq_some.1 hfind
      simp only [Option.getD_some]
      exact ⟨fun k hjk hk => by simpa using hbefore k hjk hk, .inl hn⟩

/-- Where the parameters of a lambda are looked for. -/
theorem lambdaTemplate?_cases {k : Nat} {names? : Option (List String)}
    (h : b.lambdaTemplate? j = some (k, names?)) :
    (b.punctAt j "<" = true → ∃ c, b.angleEnd? j = some c ∧ b.templateEnd j = c + 1) ∧
      k = if b.constrained j then b.nextPunctIn (b.templateEnd j) ["(", "\x7b"]
        else b.templateEnd j := by
  unfold lambdaTemplate? at h
  split at h
  next hopen =>
    split at h
    · cases h
    next c hc =>
      have hend : b.templateEnd j = c + 1 := by simp [templateEnd, hopen, hc]
      cases h
      exact ⟨fun _ => ⟨c, hc, hend⟩, by simp [constrained, hopen, hend]⟩
  next hopen =>
    cases h
    exact ⟨fun hopen' => absurd hopen' hopen, by simp [constrained, templateEnd, hopen]⟩

theorem templateEnd_le {k : Nat} {names? : Option (List String)}
    (h : b.lambdaTemplate? j = some (k, names?)) : b.templateEnd j ≤ k := by
  rw [(lambdaTemplate?_cases h).2]
  split
  · exact CutsOf.le_nextPunctIn _ _
  · exact Nat.le_refl _

/-! ## Lambdas -/

/-- What a look ahead that found a body came through: the parameters start where they are looked
for, or there are none, and from behind them the way leads to the brace. -/
theorem lambdaAhead_cases {enclosing body : Scope}
    (h : (b.lambdaAhead enclosing i).body = some body) :
    ∃ close j names? k constant, b.pairs.partner? i = some close ∧
      b.lambdaTemplate? (close + 1) = some (j, names?) ∧
      b.lambdaBody? maxLambdaSpecifiers k false false = some (body.opener, constant) ∧
      (b.closer? body.opener).isSome ∧
      ((∃ c, b.roundEnd? j = some c ∧ k = c + 1 ∧
          (b.lambdaAhead enclosing i).parameters = some j) ∨
        (b.punctAt j "(" = false ∧ k = j ∧ (b.lambdaAhead enclosing i).parameters = none)) := by
  have hfinish : ∀ {k : Nat} {template : Bool} {names? : Option (List String)},
      lambdaAhead.finish b enclosing k template names? = some body →
      ∃ constant, b.lambdaBody? maxLambdaSpecifiers k false false = some (body.opener, constant) ∧
        (b.closer? body.opener).isSome := by
    intro k template names? h
    unfold lambdaAhead.finish at h
    split at h
    next n constant hn =>
      split at h
      next hclosed =>
        cases h
        exact ⟨constant, hn, hclosed⟩
      next => cases h
    next => cases h
  generalize hahead : b.lambdaAhead enclosing i = ahead at h
  unfold lambdaAhead at hahead
  split at hahead
  · subst hahead
    cases h
  next close hclose =>
  split at hahead
  · subst hahead
    cases h
  next j names? hj =>
  split at hahead
  next hround =>
    split at hahead
    · subst hahead
      cases h
    next c hc =>
      subst hahead
      obtain ⟨constant, hbody, hclosed⟩ := hfinish h
      exact ⟨close, j, names?, c + 1, constant, hclose, hj, hbody, hclosed,
        .inl ⟨c, by rw [roundEnd?, if_pos hround, hc], rfl, rfl⟩⟩
  next hround =>
    subst hahead
    obtain ⟨constant, hbody, hclosed⟩ := hfinish h
    exact ⟨close, j, names?, j, constant, hclose, hj, hbody, hclosed,
      .inr ⟨by simpa using hround, rfl, rfl⟩⟩

/-- The parameters that start at index `j`, if any do, have the word `auto` among them. -/
def takesAuto (b : Bracketed) (j : Nat) : Bool :=
  b.punctAt j "(" && (b.closer? j).any fun c => (b.between (j + 1) c).any (·.isWord "auto")

/-- What the body of a lambda is told of templates: those of its own parameters, whether it has
template parameters or an `auto`, and those around it. -/
theorem template_of_lambdaAhead {enclosing body : Scope}
    (h : (b.lambdaAhead enclosing i).body = some body) :
    ∃ close j names?, b.pairs.partner? i = some close ∧
      b.lambdaTemplate? (close + 1) = some (j, names?) ∧
      body.template = (names?.isSome || b.takesAuto j || enclosing.template) ∧
      body.templateNames = names?.getD [] ++ enclosing.templateNames ∧ body.resume = none := by
  have hfinish : ∀ {k : Nat} {template : Bool} {names? : Option (List String)},
      lambdaAhead.finish b enclosing k template names? = some body →
      body.template = (template || enclosing.template) ∧
        body.templateNames = names?.getD [] ++ enclosing.templateNames ∧ body.resume = none := by
    intro k template names? h
    unfold lambdaAhead.finish at h
    split at h
    · split at h
      · cases h
        exact ⟨rfl, rfl, rfl⟩
      · cases h
    · cases h
  unfold lambdaAhead at h
  split at h
  · cases h
  next close hclose =>
  split at h
  · cases h
  next j names? hj =>
  refine ⟨close, j, names?, hclose, hj, ?_⟩
  split at h
  next hround =>
    split at h
    · cases h
    next c hc =>
      obtain ⟨htemplate, hnames⟩ := hfinish h
      refine ⟨?_, hnames⟩
      rw [htemplate, takesAuto, hround, hc, Bool.true_and, Option.any_some]
  next hround =>
    obtain ⟨htemplate, hnames⟩ := hfinish h
    refine ⟨?_, hnames⟩
    simp [htemplate, takesAuto, hround]

theorem resume_of_lambdaAhead {enclosing body : Scope}
    (h : (b.lambdaAhead enclosing i).body = some body) : body.resume = none := by
  obtain ⟨_, _, _, _, _, _, _, hresume⟩ := template_of_lambdaAhead h
  exact hresume

/-- A lambda is introduced at index `i`, and the look ahead from there finds its body. -/
structure Announces (b : Bracketed) (enclosing : Scope) (i : Nat) (body : Scope) : Prop where
  opens : b.punctAt i "[" = true
  /-- The square bracket starts no attributes. -/
  bare : b.attributeEnd? i = none
  introduces : b.introducesLambda i = true
  ahead : (b.lambdaAhead enclosing i).body = some body

end Bracketed

/-! ## Fragments -/

/-- The step that cuts a lambda stands at an introducer that announces its body. -/
theorem ScanState.announces_of_cut {b : Bracketed} {s : ScanState} {i first last : Nat} {t : Lexeme}
    {context : Context} (ht : b.at? i = some t)
    (h : .span .captureList first last context ∈ (s.step b i t).cuts) :
    ∃ body, b.Announces s.scope i body ∧ first = i ∧ last = body.opener - 1 := by
  cases emits_of_cut h with
  | lambda hopen hbare hintroduces hbody =>
      have hsquare : b.punctAt i "[" = true := Bracketed.punctAt_iff.2 ⟨t, ht, hopen⟩
      exact ⟨_, ⟨hsquare, hbare, hintroduces, hbody⟩, rfl, rfl⟩

/-- A lambda that is a fragment runs from an introducer to the token before the body that is
announced there. -/
theorem Source.exists_lambda {name text : String} {f : Fragment}
    (hf : f ∈ (scan name text).fragments) (hkind : f.kind = .captureList) :
    ∃ i s body, Boundary (.ofText text) i s ∧
      (Bracketed.ofText text).Announces s.scope i body ∧ i < body.opener ∧
      (Source.ofText name text).Window f i (body.opener - 1) := by
  obtain ⟨i, s, hi, first, last, hs, hcut, hstep, hwindow⟩ := exists_step hf (by rw [hkind]; decide)
  rw [hkind] at hcut hstep
  cases hstep with
  | lambda hopen =>
      obtain ⟨body, hannounces, -, hlast⟩ :=
        ScanState.announces_of_cut (Array.getElem?_eq_getElem hi) hcut
      obtain ⟨close, hclose, hlt, -⟩ := CutsOf.lambdaAhead_body hannounces.ahead
      have hafter := (Bracketed.nested_ofLexemes _).lt_of_opensAt hclose
        (Bracketed.opensAt_of_punctAt (k := .square) hopen)
      exact ⟨i, s, body, hs, hannounces, by omega, hlast ▸ hwindow⟩

end CxxFloor
