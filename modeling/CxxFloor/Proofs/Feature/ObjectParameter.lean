/-
# Where an explicit object parameter stands

A lambda and the declaration around it may both be read as declaring one
parameter `this`.  Between the parenthesis of a parameter list and a first
parameter `this` stand attributes and nothing else, so the parameter tells its
parenthesis (`Bracketed.OpensParameter.unique`).  Two fragments that show one
object parameter have therefore found the same parameter list, each in its own
way: a lambda directly behind its introducer or behind its template parameters
(`lambda_of_objectParameter`), a declaration behind a name, an angle, or the
word `operator` (`declaration_of_objectParameter`).
-/
import CxxFloor.Feature.Lambda
import CxxFloor.Proofs.Bracket.Depth
import CxxFloor.Proofs.Bracket.Level

namespace CxxFloor

namespace Bracketed

variable {b b' : Bracketed} {o o' k : Nat}

/-- The parenthesis at `o` opens a parameter list whose first parameter, attributes left aside,
starts at index `k`. -/
structure OpensParameter (b : Bracketed) (o k : Nat) : Prop where
  round : b.punctAt o "(" = true
  lt : o < k
  closed : depthOf Lexeme.squareWeight (b.between (o + 1) k) = 0
  inside : ∀ m, o < m → m < k → b.punctAt m "[" = false →
    0 < depthOf Lexeme.squareWeight (b.between (o + 1) m)

/-- A parameter has one place only at which its list can open. -/
theorem OpensParameter.unique (h : b.OpensParameter o k) (h' : b.OpensParameter o' k) : o = o' := by
  -- attributes that start inside attributes do not end with them
  have hapart : ∀ {o o' : Nat}, b.OpensParameter o k → b.OpensParameter o' k → ¬ o < o' := by
    intro o o' h h' hlt
    obtain ⟨t, ht, hround⟩ := punctAt_iff.1 h'.round
    have hsquare : b.punctAt o' "[" = false := punctAt_unique h'.round (by decide)
    have hinside := h.inside o' hlt h'.lt hsquare
    have hweight : t.squareWeight = 0 := by
      have hopen : t.isPunct "[" = false :=
        Bool.eq_false_iff.2 fun hno => absurd (Lexeme.isPunct_unique hround hno) (by decide)
      have hclose : t.isPunct "]" = false :=
        Bool.eq_false_iff.2 fun hno => absurd (Lexeme.isPunct_unique hround hno) (by decide)
      simp [Lexeme.squareWeight, hopen, hclose]
    have hclosed := h.closed
    rw [between_append (j := o' + 1) (by omega) h'.lt, between_succ (by omega) ht,
      depthOf_append, depthOf_append, h'.closed, depthOf_cons, depthOf_nil, hweight] at hclosed
    omega
  rcases Nat.lt_trichotomy o o' with hlt | heq | hgt
  · exact absurd hlt (hapart h h')
  · exact heq
  · exact absurd hgt (hapart h' h)

/-! ## Windows -/

theorem at?_of_extract {first stop i : Nat} (h : b'.lexemes = b.lexemes.extract first stop)
    (hi : i < b'.size) : b'.at? i = b.at? (first + i) := by
  have hsize : i < (b.lexemes.extract first stop).size := h ▸ hi
  rw [Array.size_extract] at hsize
  rw [at?, h, Array.getElem?_extract, if_pos (by omega)]
  rfl

theorem between_of_extract {first stop i j : Nat} (h : b'.lexemes = b.lexemes.extract first stop)
    (hj : j ≤ b'.size) : b'.between i j = b.between (first + i) (first + j) := by
  have hsize : j ≤ (b.lexemes.extract first stop).size := h ▸ hj
  rw [Array.size_extract] at hsize
  rw [between, between, h, Array.extract_extract]
  rcases Nat.lt_or_ge i j with hlt | hge
  · rw [Nat.min_eq_left (by omega)]
  · rw [Array.extract_eq_empty_of_le (by omega), Array.extract_eq_empty_of_le (by omega)]

theorem OpensParameter.of_extract {first stop : Nat} (h : b'.lexemes = b.lexemes.extract first stop)
    (hk : k ≤ b'.size) (hopens : b'.OpensParameter o k) :
    b.OpensParameter (first + o) (first + k) := by
  have hpunct : ∀ {i : Nat} {s : String}, i < b'.size → b'.punctAt i s = b.punctAt (first + i) s := by
    intro i s hi
    rw [punctAt, punctAt, at?_of_extract h hi]
  have hlt := hopens.lt
  refine ⟨?_, by omega, ?_, fun m hm hmk hsquare => ?_⟩
  · rw [← hpunct (by omega)]
    exact hopens.round
  · rw [Nat.add_assoc, ← between_of_extract h hk]
    exact hopens.closed
  · obtain ⟨n, rfl⟩ := Nat.exists_eq_add_of_le (show first ≤ m by omega)
    rw [← hpunct (by omega)] at hsquare
    rw [Nat.add_assoc, ← between_of_extract h (by omega)]
    exact hopens.inside n (by omega) (by omega) hsquare

end Bracketed

/-! ## Parameter lists -/

namespace Part

variable {b : Bracketed} {p : Part}

theorem StandsIn.between (h : p.StandsIn b) {m : Nat} (hm : m ≤ p.lexemes.length) :
    b.between p.start (p.start + m) = p.lexemes.take m := by
  refine List.ext_getElem? fun k => ?_
  rw [Bracketed.between, Array.getElem?_toList, Array.getElem?_extract, List.getElem?_take]
  by_cases hk : k < m
  · have hlexeme := List.getElem?_eq_getElem (show k < p.lexemes.length by omega)
    have hat := h k _ hlexeme
    have hlt := (Array.getElem?_eq_some_iff.1 hat).1
    rw [if_pos (by omega), if_pos hk, hlexeme]
    exact hat
  · rw [if_neg (by omega), if_neg hk]

theorem start_of_split {separator : String} {trackAngles : Bool} {start : Nat} {ts : List Lexeme}
    {later : List Part} (h : splitTopLevel separator trackAngles start ts = p :: later) :
    p.start = start := by
  unfold splitTopLevel at h
  split at h
  · cases h
  · obtain ⟨rfl, -⟩ := List.cons_eq_cons.1 h
    exact start_splitFrom ..

end Part

section Lists

variable {b : Bracketed} {o c : Nat} {p : ObjectParameter}

theorem opensParameter_of_list (ho : b.punctAt o "(" = true)
    (h : objectParameter? (parameters (o + 1) (b.between (o + 1) c)) = some p) :
    b.OpensParameter o p.part.start := by
  cases hlist : parameters (o + 1) (b.between (o + 1) c) with
  | nil =>
      rw [hlist] at h
      cases h
  | cons first later =>
      have hfirst : first ∈ parameters (o + 1) (b.between (o + 1) c) :=
        hlist ▸ List.mem_cons_self
      have hstands : first.StandsIn b := Part.standsIn_of_mem_split hfirst
      have hstart : first.start = o + 1 := Part.start_of_split hlist
      simp only [hlist, objectParameter?] at h
      split at h
      next hthis =>
        obtain rfl := Option.some.inj h
        have hlt : leadingAttributes first.lexemes < first.lexemes.length := by
          by_contra hge
          simp [Part.stripAttributes, List.drop_eq_nil_of_le (Nat.le_of_not_lt hge)] at hthis
        have hbetween : ∀ m, m ≤ leadingAttributes first.lexemes →
            b.between (o + 1) (o + 1 + m) = first.lexemes.take m := by
          intro m hm
          rw [← hstart]
          exact hstands.between (by omega)
        obtain ⟨hclosed, hinside⟩ := depth_leadingAttributes first.lexemes
        show b.OpensParameter o (first.start + leadingAttributes first.lexemes)
        rw [hstart]
        refine ⟨ho, by omega, ?_, fun m hm hmk hsquare => ?_⟩
        · rw [hbetween _ (Nat.le_refl _)]
          exact hclosed
        · obtain ⟨n, rfl⟩ := Nat.exists_eq_add_of_lt hm
          rw [show o + n + 1 = o + 1 + n by omega] at hmk hsquare ⊢
          rw [hbetween n (by omega)]
          refine hinside n (by omega) fun t ht => ?_
          have hat := hstands n t ht
          rw [hstart] at hat
          simpa [Bracketed.punctAt, hat] using hsquare
      next => cases h

end Lists

/-! ## Lambdas and declarations -/

/-- What tells where a lambda's parameters open: behind its introducer, unless template parameters
are in between. -/
theorem lambda_of_objectParameter {b : Bracketed} {p : ObjectParameter} {names : List String}
    (h : lambdaObjectParameter? b = some (p, names)) :
    ∃ close o, b.punctAt 0 "[" = true ∧ b.closer? 0 = some close ∧
      b.OpensParameter o p.part.start ∧ (b.punctAt (close + 1) "<" = true ∨ o = close + 1) := by
  obtain ⟨d, hd, h⟩ := Option.bind_eq_some_iff.1 h
  obtain ⟨params, hparams, h⟩ := Option.bind_eq_some_iff.1 h
  obtain ⟨p', hp, h⟩ := Option.bind_eq_some_iff.1 h
  obtain ⟨rfl, -⟩ := Prod.mk.inj (Option.some.inj h)
  unfold Bracketed.lambdaDeclarator? at hd
  split at hd
  next hopen =>
    split at hd
    · cases hd
    next close hclose =>
      split at hd
      · cases hd
      next templateParameters j hj =>
        dsimp only at hd
        split at hd
        next c hc =>
          obtain rfl := Option.some.inj hd
          obtain rfl := Option.some.inj hparams
          have hopens := opensParameter_of_list (Bracketed.punctAt_of_roundEnd? hc) hp
          refine ⟨close, j, hopen, hclose, hopens, ?_⟩
          unfold Bracketed.templateParametersAt? at hj
          split at hj
          next hangle => exact .inl hangle
          next =>
            obtain ⟨-, rfl⟩ := Prod.mk.inj (Option.some.inj hj)
            exact .inr rfl
        next =>
          obtain rfl := Option.some.inj hd
          cases hparams
  next => cases hd

/-- What tells where the parameters of a declaration open: behind a name or an angle and outside
all braces, unless the word `operator` stands before. -/
theorem declaration_of_objectParameter {b : Bracketed} (hb : b.Nested) {p : ObjectParameter}
    {names : List String} (h : functionObjectParameter? b = some (p, names)) :
    ∃ o, b.OpensParameter o p.part.start ∧
      (b.OperatorWithin 0 o ∨ b.OutsideBraces o ∧
        0 < o ∧ (b.nameAt (o - 1) = true ∨ b.punctAt (o - 1) ">" = true)) := by
  obtain ⟨d, hd, h⟩ := Option.bind_eq_some_iff.1 h
  obtain ⟨p', hp, h⟩ := Option.bind_eq_some_iff.1 h
  obtain ⟨rfl, -⟩ := Prod.mk.inj (Option.some.inj h)
  simp only [Bracketed.functionDeclarator?] at hd
  have hstart := fun x y (hx : b.opensAt x .curly) (hxy : b.closer? x = some y) =>
    hb.skipHeaders_outside hx hxy (.inl (Nat.zero_le x))
  generalize b.skipHeaders 0 = start at hd hstart
  split at hd
  · cases hd
  next o c hlist =>
    obtain rfl := Option.some.inj hd
    have hat : ∀ {i : Nat}, i < (b.slice start b.size).size →
        (b.slice start b.size).at? i = b.at? (start + i) := Bracketed.at?_of_extract rfl
    obtain ⟨hround, hcase⟩ := Bracketed.opener_of_parameterListFrom? hlist
    have ho : o < (b.slice start b.size).size := by
      obtain ⟨t, ht, -⟩ := Bracketed.punctAt_iff.1 hround
      exact (Array.getElem?_eq_some_iff.1 ht).1
    have hopen : b.punctAt (start + o) "(" = true := by
      rw [Bracketed.punctAt, ← hat ho]
      exact hround
    refine ⟨start + o, opensParameter_of_list hopen hp, ?_⟩
    by_cases hoperator : (b.slice start b.size).OperatorWithin 0 o
    · obtain ⟨k, -, hk, hword⟩ := hoperator
      refine .inl ⟨start + k, Nat.zero_le _, by omega, ?_⟩
      rw [Bracketed.wordAt, ← hat (by omega)]
      exact hword
    · refine .inr ⟨fun x y hx hxy => ?_, ?_⟩
      · rcases hstart x y hx hxy with hle | hlt
        · obtain ⟨x, rfl⟩ := Nat.exists_eq_add_of_le hle
          obtain ⟨y, rfl⟩ := Nat.exists_eq_add_of_le
            (Nat.le_trans hle (Nat.le_of_lt (Pairing.lt_of_closer? hxy)))
          have hpartner := Bracketed.partner?_of_closer? hxy
          have hpair : (b.slice start b.size).pairs.partner? x = some y :=
            Pairing.partner?_restrict.2 ⟨hpartner, hb.lt_size hpartner, hb.partner_lt hpartner⟩
          have hslice : (b.slice start b.size).Nested := hb.slice (Nat.le_refl b.size)
          have hcurly : (b.slice start b.size).opensAt x .curly := by
            rw [Bracketed.opensAt, hat (hslice.lt_size hpair)]
            exact hx
          have houtside := hslice.operator_or_outside hcurly
            (hslice.closer?_of_opensAt hpair hcurly) (.inl (Nat.zero_le x)) hlist
          have := houtside.resolve_left hoperator
          omega
        · exact .inr (by omega)
      · have hbefore := hcase.resolve_left hoperator
        simp only [Bracketed.declaratorBefore, Bool.and_eq_true, decide_eq_true_eq,
          Bool.or_eq_true] at hbefore
        obtain ⟨hpos, hbefore⟩ := hbefore
        refine ⟨by omega, ?_⟩
        rw [Nat.add_sub_assoc hpos, Bracketed.nameAt, Bracketed.punctAt, ← hat (by omega)]
        refine hbefore.imp_left fun hname => ?_
        obtain ⟨t, ht, hname⟩ := (Option.any_eq_true _ _).1 hname
        rw [Bool.and_eq_true] at hname
        exact (Option.any_eq_true _ _).2 ⟨t, ht, hname.1⟩

end CxxFloor
