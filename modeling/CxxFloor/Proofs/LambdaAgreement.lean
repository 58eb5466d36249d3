/-
# Two readings of a lambda

A lambda is read twice: by the walk, which looks ahead from the introducer for
the body, over the brackets of the whole file, and by the matchers, which take
the fragment apart that the walk cut out, over its own brackets.  In a file
whose brackets are all in order the second reading finds what the first one
found (`lambda_readings_agree`): the same parameters or none, and behind them
the same specifiers.

Both readings look for the parameters of a constrained lambda at the first
parenthesis behind the template parameters, but the walk takes the first of
all, and the matchers pass over the square brackets in between.  They still
meet.  Had the walk taken a parenthesis inside square brackets, its look ahead
would have started there and could not have found a body behind them
(`Bracketed.Nested.lt_of_lambdaBody?`), so the brackets end behind the fragment
or not at all, and the matchers do not see them closed.
-/
import CxxFloor.Proofs.Agreement
import CxxFloor.Proofs.Embedding.Around
import CxxFloor.Proofs.Feature.ObjectParameter
import CxxFloor.Proofs.Scope.LambdaAhead

namespace CxxFloor

namespace Bracketed

variable {b : Bracketed} {start stop i j k c o : Nat} {s : String}

/-! ## Readings of a slice -/

theorem size_slice (hstop : stop ≤ b.size) : (b.slice start stop).size = stop - start := by
  have hmin : min stop b.lexemes.size = stop := Nat.min_eq_left hstop
  show (b.lexemes.extract start stop).size = _
  rw [Array.size_extract, hmin]

theorem at?_slice (hstop : stop ≤ b.size) (hk : start + k < stop) :
    (b.slice start stop).at? k = b.at? (start + k) :=
  at?_of_extract rfl (by rw [size_slice hstop]; omega)

theorem punctAt_slice (hstop : stop ≤ b.size) (hk : start + k < stop) :
    (b.slice start stop).punctAt k s = b.punctAt (start + k) s := by
  rw [punctAt, punctAt, at?_slice hstop hk]

theorem punctInAt_slice (hstop : stop ≤ b.size) (hk : start + k < stop) {ss : List String} :
    (b.slice start stop).punctInAt k ss = b.punctInAt (start + k) ss := by
  rw [punctInAt, punctInAt, at?_slice hstop hk]

theorem between_slice (hstop : stop ≤ b.size) (hj : start + j ≤ stop) :
    (b.slice start stop).between i j = b.between (start + i) (start + j) :=
  between_of_extract rfl (by rw [size_slice hstop]; omega)

theorem closer?_slice : (b.slice start stop).closer? k = some c ↔
    b.closer? (start + k) = some (start + c) ∧ start + c < stop := by
  simp only [closer?, Pairing.closer?_eq_some]
  show (b.pairs.restrict start stop).partner? k = some c ∧ k < c ↔ _
  rw [Pairing.partner?_restrict]
  constructor
  · rintro ⟨⟨hpartner, -, hc⟩, hlt⟩
    exact ⟨⟨hpartner, by omega⟩, hc⟩
  · rintro ⟨⟨hpartner, hlt⟩, hc⟩
    exact ⟨⟨hpartner, by omega, hc⟩, by omega⟩

theorem roundEnd?_slice (hstop : stop ≤ b.size) (h : b.roundEnd? (start + k) = some (start + c))
    (hc : start + c < stop) : (b.slice start stop).roundEnd? k = some c := by
  have hclose : b.closer? (start + k) = some (start + c) := closer?_of_roundEnd? h
  have hlt := Pairing.lt_of_closer? hclose
  rw [roundEnd?, punctAt_slice hstop (by omega), punctAt_of_roundEnd? h, if_pos rfl]
  exact closer?_slice.2 ⟨hclose, hc⟩

theorem angleFrom?_slice (hstop : stop ≤ b.size) {depth : Int} (hi : i = start + j)
    (h : b.angleFrom? i depth = some c) (hc : c < stop) :
    (b.slice start stop).angleFrom? j depth = some (c - start) := by
  have hle := le_of_angleFrom? h
  fun_induction angleFrom? b i depth generalizing j with
  | case1 i depth _ hless ih =>
      obtain rfl := hi
      have := le_of_angleFrom? h
      rw [angleFrom?_def, if_pos (by rw [size_slice hstop]; omega), punctAt_slice hstop (by omega),
        if_pos hless]
      exact ih rfl h this
  | case2 i _ hless hgreater =>
      obtain rfl := hi
      cases h
      rw [angleFrom?_def, if_pos (by rw [size_slice hstop]; omega), punctAt_slice hstop hc,
        if_neg hless, punctAt_slice hstop hc, if_pos hgreater, if_pos rfl, Nat.add_sub_cancel_left]
  | case3 i depth _ hless hgreater hdepth ih =>
      obtain rfl := hi
      have := le_of_angleFrom? h
      rw [angleFrom?_def, if_pos (by rw [size_slice hstop]; omega), punctAt_slice hstop (by omega),
        if_neg hless, punctAt_slice hstop (by omega), if_pos hgreater, if_neg hdepth]
      exact ih rfl h this
  | case4 i depth _ hless hgreater hgroup m hm ih =>
      obtain rfl := hi
      have := le_of_angleFrom? h
      have hlt := Pairing.lt_of_closer? hm
      obtain ⟨n, rfl⟩ := Nat.exists_eq_add_of_le (show start ≤ m by omega)
      have hclose : (b.slice start stop).closer? j = some n := closer?_slice.2 ⟨hm, by omega⟩
      rw [angleFrom?_def, if_pos (by rw [size_slice hstop]; omega), punctAt_slice hstop (by omega),
        if_neg hless, punctAt_slice hstop (by omega), if_neg hgreater,
        punctInAt_slice hstop (by omega), if_pos hgroup, hclose]
      exact ih rfl h this
  | case5 => cases h
  | case6 => cases h
  | case7 i depth _ hless hgreater hgroup hend ih =>
      obtain rfl := hi
      have := le_of_angleFrom? h
      rw [angleFrom?_def, if_pos (by rw [size_slice hstop]; omega), punctAt_slice hstop (by omega),
        if_neg hless, punctAt_slice hstop (by omega), if_neg hgreater,
        punctInAt_slice hstop (by omega), if_neg hgroup, punctInAt_slice hstop (by omega),
        if_neg hend]
      exact ih rfl h this
  | case8 => cases h

/-! ## Constraints -/

/-- The constraint ends at the first parenthesis or at the end if every group that opens before
that place is closed before it. -/
theorem constraintEnd_eq (hjo : j ≤ o) (ho : o ≤ b.size)
    (hend : b.punctAt o "(" = true ∨ o = b.size)
    (hfirst : ∀ k, j ≤ k → k < o → b.punctAt k "(" = false)
    (hgroups : ∀ p c, j ≤ p → p < o → b.closer? p = some c → c < o) : b.constraintEnd j = o := by
  fun_induction constraintEnd b j with
  | case1 j _ hround =>
      refine Nat.le_antisymm hjo (Nat.le_of_not_lt fun hlt => ?_)
      rw [hfirst j (Nat.le_refl j) hlt] at hround
      cases hround
  | case2 j hsize hround c hc ih =>
      have hne : j ≠ o := by
        rintro rfl
        exact hend.elim hround (Nat.ne_of_lt hsize)
      have hlt := lt_of_operandEnd? hc
      have hco := hgroups j c (Nat.le_refl j) (by omega) (closer?_of_operandEnd? hc)
      exact ih hco (fun k hk => hfirst k (by omega)) fun p c' hp => hgroups p c' (by omega)
  | case3 j hsize hround _ ih =>
      have hne : j ≠ o := by
        rintro rfl
        exact hend.elim hround (Nat.ne_of_lt hsize)
      exact ih (by omega) (fun k hk => hfirst k (by omega)) fun p c' hp => hgroups p c' (by omega)
  | case4 j hsize => omega

/-- Where the matchers look for the parameters of a lambda, of which they have what stands from its
introducer at `first` on and before its body, its template parameters starting at index `j`. -/
def parametersIndex (b : Bracketed) (first j body : Nat) : Nat :=
  if b.constrained j then (b.slice first body).constraintEnd (b.templateEnd j - first)
  else b.templateEnd j - first

/-! ## A slice up to a brace -/

section Brace

variable (hbrace : b.punctAt stop "\x7b" = true)
include hbrace

theorem any_slice_brace (hk : start + k ≤ stop) {p : Lexeme → Bool}
    (hp : ∀ t, t.isPunct "\x7b" = true → p t = false) :
    ((b.slice start stop).at? k).any p = (b.at? (start + k)).any p := by
  have hstop := Nat.le_of_lt (lt_size_of_punctAt hbrace)
  rcases Nat.eq_or_lt_of_le hk with heq | hlt
  · obtain ⟨t, ht, hpunct⟩ := punctAt_iff.1 hbrace
    have hsize : (b.slice start stop).size = stop - start := size_slice hstop
    have hnone : (b.slice start stop).at? k = none :=
      Array.getElem?_eq_none (Nat.le_trans (Nat.le_of_eq hsize) (by omega))
    rw [hnone, heq, ht, Option.any_some, hp t hpunct]
    rfl
  · rw [at?_slice hstop hlt]

theorem punctAt_slice_brace (hk : start + k ≤ stop) (hs : s ≠ "\x7b") :
    (b.slice start stop).punctAt k s = b.punctAt (start + k) s :=
  any_slice_brace hbrace hk fun _ ht =>
    Bool.eq_false_iff.2 fun h => hs (Lexeme.isPunct_unique h ht)

theorem wordAt_slice_brace (hk : start + k ≤ stop) :
    (b.slice start stop).wordAt k s = b.wordAt (start + k) s := by
  refine any_slice_brace hbrace hk fun t ht => ?_
  simp only [Lexeme.isPunct, Bool.and_eq_true, beq_iff_eq] at ht
  simp [Lexeme.isWord, ht.1]

/-- The template parameters of a lambda, as a slice has them that ends before the body. -/
theorem templateParametersAt?_slice {names? : Option (List String)}
    (h : b.lambdaTemplate? (start + j) = some (k, names?))
    (hend : b.templateEnd (start + j) ≤ stop) :
    ∃ ts, (b.slice start stop).templateParametersAt? j =
      some (ts, b.parametersIndex start (start + j) stop) := by
  have hle := le_templateEnd b (start + j)
  have hpunct : (b.slice start stop).punctAt j "<" = b.punctAt (start + j) "<" :=
    punctAt_slice_brace hbrace (by omega) (by decide)
  unfold templateParametersAt? parametersIndex
  by_cases hopen : b.punctAt (start + j) "<" = true
  · obtain ⟨c, hc, hcend⟩ := (lambdaTemplate?_cases h).1 hopen
    rw [hcend] at hend hle ⊢
    have hstop := Nat.le_of_lt (lt_size_of_punctAt hbrace)
    have hslice : (b.slice start stop).angleEnd? j = some (c - start) :=
      angleFrom?_slice hstop rfl hc (by omega)
    have hle' := le_of_angleEnd? hc
    have hnext : start + (c - start + 1) = c + 1 := by omega
    have hword : (b.slice start stop).wordAt (c - start + 1) "requires" =
        b.wordAt (start + (c - start + 1)) "requires" := wordAt_slice_brace hbrace (by omega)
    rw [hnext] at hword
    rw [hpunct, if_pos hopen, hslice, show c + 1 - start = c - start + 1 by omega]
    refine ⟨(b.slice start stop).between (j + 1) (c - start), ?_⟩
    simp only [hword, constrained, hopen, hcend, Bool.true_and]
  · rw [hpunct, if_neg hopen]
    refine ⟨[], ?_⟩
    simp [constrained, templateEnd, hopen]

end Brace

end Bracketed

/-! ## The declarator -/

/-- The parameters of the declarator are read at index `n`, and the rest are its specifiers. -/
structure LambdaDeclarator.ReadsFrom (d : LambdaDeclarator) (b : Bracketed) (n : Nat) : Prop where
  params : d.params = (b.roundEnd? n).map fun k => parameters (n + 1) (b.between (n + 1) k)
  specifiers : d.specifiers =
    ⟨(b.roundEnd? n).elim n (· + 1), b.between ((b.roundEnd? n).elim n (· + 1)) b.size⟩

/-- The declarator of lexemes that start with a closed introducer. -/
theorem Bracketed.exists_lambdaDeclarator? {b : Bracketed} {c j : Nat} {ts : List Lexeme}
    (hopen : b.punctAt 0 "[" = true) (hclose : b.closer? 0 = some c)
    (htemplate : b.templateParametersAt? (c + 1) = some (ts, j)) :
    ∃ d, b.lambdaDeclarator? = some d ∧ d.ReadsFrom b j := by
  rw [lambdaDeclarator?, if_pos hopen, hclose]
  simp only [htemplate]
  cases hround : b.roundEnd? j with
  | none => exact ⟨_, rfl, by rw [hround]; rfl, by rw [hround]; rfl⟩
  | some k => exact ⟨_, rfl, by rw [hround]; rfl, by rw [hround]; rfl⟩

/-- The declarator has the parameters that the look ahead found behind the introducer at `first`, or
none like it, and as its specifiers the lexemes between them and the brace at `body`.  Without
parameters these are the lexemes behind the introducer and the template parameters, but none at all
if a constraint follows those. -/
structure LambdaDeclarator.Agrees (d : LambdaDeclarator) (b : Bracketed) (first body : Nat)
    (ahead : LambdaAhead) : Prop where
  listed : ∀ o, ahead.parameters = some o → ∃ c, b.roundEnd? o = some c ∧ first < o ∧ c < body ∧
    d.params = some (parameters (o - first + 1) (b.between (o + 1) c)) ∧
    d.specifiers = ⟨c - first + 1, b.between (c + 1) body⟩
  unlisted : ahead.parameters = none → d.params = none ∧
    ∃ close, b.closer? first = some close ∧ d.specifiers =
      if b.constrained (close + 1) then ⟨body - first, []⟩
      else ⟨b.templateEnd (close + 1) - first, b.between (b.templateEnd (close + 1)) body⟩

namespace Bracketed

variable {b : Bracketed} {i j k c o body : Nat} {d : LambdaDeclarator} {ahead : LambdaAhead}
  {names? : Option (List String)} {steps : Nat} {arrow constant : Bool} {r : Nat × Bool}

/-! ## Where the parameters are -/

/-- The matchers look for the parameters where the walk found them.  A group that is open there is
open to the end of the fragment, since it would have kept the look ahead inside. -/
theorem Nested.parametersIndex_listed (hb : b.Nested) (hij : i ≤ j)
    (htemplate : b.lambdaTemplate? j = some (o, names?)) (hround : b.roundEnd? o = some c)
    (h : b.lambdaBody? steps (c + 1) arrow constant = some r) (hr : r.1 = body)
    (hbody : body ≤ b.size) : b.parametersIndex i j body = o - i := by
  have hle := le_templateEnd b j
  have hend := templateEnd_le htemplate
  have hcb := CutsOf.le_of_lambdaBody? h
  have hclose := closer?_of_roundEnd? hround
  have hoc := Pairing.lt_of_closer? hclose
  obtain ⟨-, ho⟩ := lambdaTemplate?_cases htemplate
  unfold parametersIndex
  split
  next hconstrained =>
    rw [if_pos hconstrained] at ho
    have hfirst := (nextPunctIn_cases (show b.templateEnd j ≤ b.size by omega) ["(", "\x7b"]).1
    rw [← ho] at hfirst
    refine constraintEnd_eq (by omega) (by rw [size_slice hbody]; omega) (.inl ?_) ?_ ?_
    · rw [punctAt_slice hbody (by omega), Nat.add_sub_cancel' (by omega)]
      exact punctAt_of_roundEnd? hround
    · intro k hjk hk
      rw [punctAt_slice hbody (by omega)]
      exact punctAt_eq_false (hfirst (i + k) (by omega) (by omega)) (by simp)
    · intro p q hp hlt hpq
      obtain ⟨hpq, hq⟩ := closer?_slice.1 hpq
      refine Nat.lt_of_not_le fun hge => ?_
      have hpartner := partner?_of_closer? hclose
      have hne : i + q ≠ o := by
        intro heq
        have hback := hb.partner_symm (partner?_of_closer? hpq)
        rw [heq, hpartner] at hback
        cases hback
        omega
      have hin := hb.inside (partner?_of_closer? hpq) hpartner (by omega) (by omega)
      have := hb.lt_of_lambdaBody? hpq (by omega) hin.2 h
      omega
  next hconstrained => rw [ho, if_neg hconstrained]

/-- Without parameters there is no parenthesis behind the template parameters of a constrained
lambda, and the matchers come to the end of the fragment. -/
theorem parametersIndex_constrained (hconstrained : b.constrained j = true) (hij : i ≤ j)
    (htemplate : b.lambdaTemplate? j = some (o, names?)) (hround : b.punctAt o "(" = false)
    (h : b.lambdaBody? steps o arrow constant = some r) (hr : r.1 = body)
    (hbody : body < b.size) : b.parametersIndex i j body = body - i := by
  have hle := le_templateEnd b j
  have hend := templateEnd_le htemplate
  have hob := CutsOf.le_of_lambdaBody? h
  have ho := (lambdaTemplate?_cases htemplate).2
  rw [if_pos hconstrained] at ho
  obtain ⟨hfirst, hstop⟩ :=
    nextPunctIn_cases (show b.templateEnd j ≤ b.size by omega) ["(", "\x7b"]
  rw [← ho] at hfirst hstop
  have hbrace : b.punctAt o "\x7b" = true := by
    have hone := hstop.resolve_right (by omega)
    rwa [punctInAt_pair, hround, Bool.false_or] at hone
  have hob := eq_of_lambdaBody?_brace hbrace h
  rw [parametersIndex, if_pos hconstrained]
  refine constraintEnd_eq (by omega) (by rw [size_slice (by omega)]) (.inr ?_) ?_ ?_
  · rw [size_slice (by omega)]
  · intro k hjk hk
    rw [punctAt_slice (by omega) (by omega)]
    exact punctAt_eq_false (hfirst (i + k) (by omega) (by omega)) (by simp)
  · intro p q _ _ hpq
    obtain ⟨-, hq⟩ := closer?_slice.1 hpq
    omega

/-- Without parameters the matchers look for them behind the template parameters, or at the end of
the fragment if a constraint follows those, and find no parenthesis. -/
theorem parametersIndex_unlisted (hij : i ≤ j) (htemplate : b.lambdaTemplate? j = some (o, names?))
    (hround : b.punctAt o "(" = false) (h : b.lambdaBody? steps o arrow constant = some r)
    (hr : r.1 = body) (hbrace : b.punctAt body "\x7b" = true) :
    b.parametersIndex i j body = (if b.constrained j then body - i else b.templateEnd j - i) ∧
      i + b.parametersIndex i j body ≤ body ∧
        b.punctAt (i + b.parametersIndex i j body) "(" = false := by
  have hle := le_templateEnd b j
  have hob := CutsOf.le_of_lambdaBody? h
  have hend := templateEnd_le htemplate
  by_cases hconstrained : b.constrained j = true
  · have hindex : b.parametersIndex i j body = body - i :=
      parametersIndex_constrained hconstrained hij htemplate hround h hr (lt_size_of_punctAt hbrace)
    have hplace : i + (body - i) = body := by omega
    rw [hindex, if_pos hconstrained, hplace]
    exact ⟨rfl, Nat.le_refl body, punctAt_unique hbrace (by decide)⟩
  · have ho := (lambdaTemplate?_cases htemplate).2
    rw [if_neg hconstrained] at ho
    have hindex : b.parametersIndex i j body = b.templateEnd j - i := by
      rw [parametersIndex, if_neg hconstrained]
    have hplace : i + (b.templateEnd j - i) = o := by omega
    rw [hindex, if_neg hconstrained, hplace]
    exact ⟨rfl, by omega, hround⟩

/-! ## Parameters and specifiers -/

/-- What the matchers read from index `n` of the fragment on, where the walk found parameters. -/
theorem agrees_of_listed {n m : Nat} (hbody : body ≤ b.size)
    (hround : b.roundEnd? (i + n) = some (i + m)) (hn : 0 < n)
    (hm : i + m < body) (hahead : ahead.parameters = some (i + n))
    (hreads : d.ReadsFrom (b.slice i body) n) : d.Agrees b i body ahead := by
  have hend : i + (body - i) = body := by omega
  obtain ⟨hparams, hspecifiers⟩ := hreads
  rw [roundEnd?_slice hbody hround hm] at hparams hspecifiers
  refine ⟨fun o ho => ?_, fun hnone => ?_⟩
  · obtain rfl : i + n = o := Option.some.inj (hahead.symm.trans ho)
    refine ⟨i + m, hround, by omega, hm, ?_, ?_⟩
    · rw [hparams, Option.map_some, between_slice hbody (Nat.le_of_lt hm), Nat.add_sub_cancel_left]
      rfl
    · rw [hspecifiers, Option.elim_some, size_slice hbody, between_slice hbody (Nat.le_of_eq hend),
        hend, Nat.add_sub_cancel_left]
      rfl
  · rw [hahead] at hnone
    cases hnone

/-- What the matchers read from index `n` of the fragment on, where the walk found no parameters. -/
theorem agrees_of_unlisted {n : Nat} (hbrace : b.punctAt body "\x7b" = true) (hn : i + n ≤ body)
    (hround : b.punctAt (i + n) "(" = false) (hclose : b.closer? i = some c)
    (hindex : n = if b.constrained (c + 1) then body - i else b.templateEnd (c + 1) - i)
    (hle : i ≤ b.templateEnd (c + 1)) (hahead : ahead.parameters = none)
    (hreads : d.ReadsFrom (b.slice i body) n) : d.Agrees b i body ahead := by
  have hbody := Nat.le_of_lt (lt_size_of_punctAt hbrace)
  have hend : i + (body - i) = body := by omega
  have hnone : (b.slice i body).roundEnd? n = none := by
    rw [roundEnd?, punctAt_slice_brace hbrace hn (by decide), hround]
    rfl
  obtain ⟨hparams, hspecifiers⟩ := hreads
  rw [hnone] at hparams hspecifiers
  refine ⟨fun o ho => ?_, fun _ => ⟨hparams, c, hclose, ?_⟩⟩
  · rw [hahead] at ho
    cases ho
  · rw [hspecifiers, Option.elim_none, size_slice hbody, between_slice hbody (Nat.le_of_eq hend),
      hend]
    split at hindex
    next hconstrained =>
      rw [if_pos hconstrained, hindex, hend, between, Array.extract_eq_empty_of_le (by omega)]
    next hconstrained =>
      rw [if_neg hconstrained, hindex, Nat.add_sub_cancel' hle]

/-- The declarator that is read from a lambda up to its body agrees with the look ahead. -/
theorem Nested.lambdaDeclarator?_slice (hb : b.Nested) {enclosing scope : Scope}
    (hopen : b.punctAt i "[" = true) (h : (b.lambdaAhead enclosing i).body = some scope) :
    ∃ d, (b.slice i scope.opener).lambdaDeclarator? = some d ∧
      d.Agrees b i scope.opener (b.lambdaAhead enclosing i) := by
  obtain ⟨close, o, names?, k, constant, hclose, htemplate, hbody, -, hcase⟩ := lambdaAhead_cases h
  generalize hscope : scope.opener = body at hbody ⊢
  have hbrace : b.punctAt body "\x7b" = true := punctAt_of_lambdaBody? hbody
  have hsize := lt_size_of_punctAt hbrace
  have hstop := Nat.le_of_lt hsize
  have hkbody : k ≤ body := CutsOf.le_of_lambdaBody? hbody
  have hclose := hb.closer?_of_opensAt hclose (opensAt_of_punctAt (k := .square) hopen)
  have hic := Pairing.lt_of_closer? hclose
  obtain ⟨m, rfl⟩ := Nat.exists_eq_add_of_le (Nat.le_of_lt hic)
  have hle := le_templateEnd b (i + m + 1)
  have hend := templateEnd_le htemplate
  have hok : o ≤ k := by
    rcases hcase with ⟨c, hc, rfl, -⟩ | ⟨-, rfl, -⟩
    · exact Nat.le_succ_of_le (Nat.le_of_lt (Pairing.lt_of_closer? (closer?_of_roundEnd? hc)))
    · exact Nat.le_refl _
  obtain ⟨ts, hts⟩ : ∃ ts, (b.slice i body).templateParametersAt? (m + 1) =
      some (ts, b.parametersIndex i (i + m + 1) body) :=
    templateParametersAt?_slice hbrace htemplate (show b.templateEnd (i + m + 1) ≤ body by omega)
  have hopen' : (b.slice i body).punctAt 0 "[" = true := by
    rw [punctAt_slice hstop (by omega)]
    exact hopen
  have hclose' : (b.slice i body).closer? 0 = some m := closer?_slice.2 ⟨hclose, by omega⟩
  obtain ⟨d, hd, hreads⟩ := exists_lambdaDeclarator? hopen' hclose' hts
  refine ⟨d, hd, ?_⟩
  rcases hcase with ⟨c, hround, rfl, hahead⟩ | ⟨hround, rfl, hahead⟩
  · have hoc := Pairing.lt_of_closer? (closer?_of_roundEnd? hround)
    obtain ⟨n, rfl⟩ := Nat.exists_eq_add_of_le (show i ≤ o by omega)
    obtain ⟨n', rfl⟩ := Nat.exists_eq_add_of_le (show i ≤ c by omega)
    rw [hb.parametersIndex_listed (by omega) htemplate hround hbody rfl hstop,
      Nat.add_sub_cancel_left] at hreads
    exact agrees_of_listed hstop hround (by omega) (by omega) hahead hreads
  · obtain ⟨hindex, hplace, hnone⟩ :=
      parametersIndex_unlisted (show i ≤ i + m + 1 by omega) htemplate hround hbody rfl hbrace
    exact agrees_of_unlisted hbrace hplace hnone hclose hindex (by omega) hahead hreads

end Bracketed

/-- In every text whose brackets are in order, a lambda that is a fragment is taken apart by the
matchers just as the walk read it: it runs from an introducer where the walk stops to the token
before the body that is announced there, it has a declarator, and the parameters and specifiers of
that agree with what the look ahead from the introducer found. -/
theorem lambda_readings_agree {name text : String} {f : Fragment}
    (hbrackets : bracketDiagnostics (Source.ofText name text).words.toList = [])
    (hf : f ∈ (scan name text).fragments) (hkind : f.kind = .captureList) :
    ∃ first last s body d, (Source.ofText name text).Window f first last ∧
      Boundary (.ofText text) first s ∧
      (Bracketed.ofText text).Announces s.scope first body ∧ body.opener = last + 1 ∧
      f.view.bracketed.lambdaDeclarator? = some d ∧
      d.Agrees (.ofText text) first (last + 1)
        ((Bracketed.ofText text).lambdaAhead s.scope first) := by
  obtain ⟨first, s, body, hs, hannounces, hlt, hwindow⟩ := Source.exists_lambda hf hkind
  have hlast : body.opener - 1 + 1 = body.opener := by omega
  obtain ⟨first', last', hwindow', hslice⟩ :=
    Source.exists_slice hf (by rw [hkind]; decide)
  obtain ⟨rfl, rfl⟩ := hwindow.unique hwindow'
  obtain ⟨d, hd, hagrees⟩ :=
    (Bracketed.nested_ofLexemes _).lambdaDeclarator?_slice hannounces.opens hannounces.ahead
  refine ⟨first, body.opener - 1, s, body, d, hwindow, hs, hannounces, hlast.symm, ?_, ?_⟩
  · rw [hslice (.inr hbrackets), hlast]
    exact hd
  · rw [hlast]
    exact hagrees

/-- A lambda whose constraint holds square brackets and whose parameters come behind them. -/
theorem lambda_readings_agree_constrained :
    ∃ (text : String) (f : Fragment) (first last : Nat) (s : ScanState) (d : LambdaDeclarator),
      text = "auto f = [x]<class T> requires C<T[2]> (T t) mutable -> T \x7b \x7d;" ∧
      bracketDiagnostics (Source.ofText "a.cpp" text).words.toList = [] ∧
      f ∈ (scan "a.cpp" text).fragments ∧ f.kind = .captureList ∧
      (Source.ofText "a.cpp" text).Window f first last ∧ Boundary (.ofText text) first s ∧
      f.view.bracketed.lambdaDeclarator? = some d ∧
      d.Agrees (.ofText text) first (last + 1)
        ((Bracketed.ofText text).lambdaAhead s.scope first) := by
  generalize htext :
    "auto f = [x]<class T> requires C<T[2]> (T t) mutable -> T \x7b \x7d;" = text
  have hbrackets : bracketDiagnostics (Source.ofText "a.cpp" text).words.toList = [] := by
    rw [← htext]
    decide +kernel
  have hshown : ∃ f ∈ (scan "a.cpp" text).fragments, f.kind = .captureList := by
    rw [← htext, scan_fragments_eq (by decide +kernel)]
    decide +kernel
  obtain ⟨f, hf, hkind⟩ := hshown
  obtain ⟨first, last, s, body, d, hwindow, hs, -, -, hd, hagrees⟩ :=
    lambda_readings_agree hbrackets hf hkind
  exact ⟨text, f, first, last, s, d, rfl, hbrackets, hf, hkind, hwindow, hs, hd, hagrees⟩

end CxxFloor
