/-
# The return type of a lambda

Behind its arrow the return type of a lambda may hold almost anything: words and
punctuators, template arguments with their commas, and whole groups in
parentheses and square brackets, which are passed over.  Only literals are not
passed over where they stand at the top level of the type, since the look ahead
goes on at words and punctuators alone.  So a lambda with a trailing return type
is cut out, and its body is a lambda's, exactly if no literal stands at the top
level of the type (`literals_hide_lambdas`): `std::array<int, 3>` hides a lambda
that `std::array<int, N>` does not.
-/
import CxxFloor.Proofs.Bracket.Level
import CxxFloor.Proofs.Embedding.Basic
import CxxFloor.Proofs.Literals
import CxxFloor.Proofs.Scope.Expected
import CxxFloor.Proofs.Scope.Passing

namespace CxxFloor

namespace Bracketed

variable {b : Bracketed} {i j k c p q start stop body steps : Nat} {arrow constant : Bool}

/-! ## Balanced stretches -/

/-- From index `start` on and before `stop` every bracket has its partner there. -/
structure Balanced (b : Bracketed) (start stop : Nat) : Prop where
  closed : ∀ p k, start ≤ p → p < stop → b.opensAt p k → ∃ c, b.closer? p = some c ∧ c < stop
  opened : ∀ c k, start ≤ c → c < stop → b.closesAt c k → ∃ p, start ≤ p ∧ b.closer? p = some c

instance : Decidable (b.Balanced start stop) :=
  decidable_of_iff
    ((∀ p < stop, start ≤ p → (b.at? p).bind Lexeme.opens? = none ∨
        ∃ c < stop, b.closer? p = some c) ∧
      ∀ c < stop, start ≤ c → (b.at? c).bind Lexeme.closes? = none ∨
        ∃ p < stop, start ≤ p ∧ b.closer? p = some c) <| by
    constructor
    · rintro ⟨hclosed, hopened⟩
      refine ⟨fun p k hp hlt hopen => ?_, fun c k hc hlt hclose => ?_⟩
      · have hsome := Option.ne_none_iff_exists'.2 ⟨k, hopen⟩
        obtain ⟨c, hc, hpc⟩ := (hclosed p hlt hp).resolve_left hsome
        exact ⟨c, hpc, hc⟩
      · have hsome := Option.ne_none_iff_exists'.2 ⟨k, hclose⟩
        obtain ⟨p, -, hp, hpc⟩ := (hopened c hlt hc).resolve_left hsome
        exact ⟨p, hp, hpc⟩
    · rintro ⟨hclosed, hopened⟩
      refine ⟨fun p hlt hp => ?_, fun c hlt hc => ?_⟩
      · refine or_iff_not_imp_left.2 fun hsome => ?_
        obtain ⟨k, hk⟩ := Option.ne_none_iff_exists'.1 hsome
        obtain ⟨c, hpc, hc⟩ := hclosed p k hp hlt hk
        exact ⟨c, hc, hpc⟩
      · refine or_iff_not_imp_left.2 fun hsome => ?_
        obtain ⟨k, hk⟩ := Option.ne_none_iff_exists'.1 hsome
        obtain ⟨p, hp, hpc⟩ := hopened c k hc hlt hk
        exact ⟨p, Nat.lt_trans (Pairing.lt_of_closer? hpc) hlt, hp, hpc⟩

theorem Nested.closer?_le (hb : b.Nested) (hpq : b.closer? p = some q) (hi : p ≤ i) (hiq : i ≤ q)
    (hc : b.closer? i = some c) : c ≤ q := by
  have hpartner := partner?_of_closer? hpq
  have hlt := Pairing.lt_of_closer? hc
  rcases Nat.eq_or_lt_of_le hi with rfl | hpi
  · rw [hpq] at hc
    exact Nat.le_of_eq (Option.some.inj hc).symm
  · have hne : i ≠ q := by
      rintro rfl
      have hback := hb.partner_symm hpartner
      rw [partner?_of_closer? hc] at hback
      cases hback
      omega
    have := hb.inside hpartner (partner?_of_closer? hc) hpi (by omega)
    omega

namespace Balanced

theorem succ (h : b.Balanced start stop) (hb : b.Nested) (hstay : ∀ k, ¬ b.opensAt start k) :
    b.Balanced (start + 1) stop where
  closed p k hp := h.closed p k (Nat.le_of_succ_le hp)
  opened c k hc hlt hclose := by
    obtain ⟨p, hp, hpc⟩ := h.opened c k (Nat.le_of_succ_le hc) hlt hclose
    refine ⟨p, Nat.lt_of_le_of_ne hp ?_, hpc⟩
    rintro rfl
    obtain ⟨kind, hopen, -⟩ := hb.matched (partner?_of_closer? hpc) (Pairing.lt_of_closer? hpc)
    exact hstay kind hopen

theorem behind (h : b.Balanced start stop) (hb : b.Nested) (hq : b.closer? start = some q) :
    b.Balanced (q + 1) stop where
  closed p k hp := h.closed p k (by have := Pairing.lt_of_closer? hq; omega)
  opened c k hc hlt hclose := by
    have hsq := Pairing.lt_of_closer? hq
    obtain ⟨p, hp, hpc⟩ := h.opened c k (by omega) hlt hclose
    refine ⟨p, Nat.lt_of_not_le fun hle => ?_, hpc⟩
    have := hb.closer?_le hq hp hle hpc
    omega

end Balanced

/-! ## The steps of the look ahead -/

def literalAt (b : Bracketed) (i : Nat) : Bool :=
  (b.at? i).any fun t => [TokenKind.number, .string, .character].contains t.kind

theorem groupEnd?_eq_operandEnd? (hbrace : b.punctAt i "\x7b" = false) :
    b.groupEnd? i = b.operandEnd? i := by
  by_cases hopen : ∃ k, b.opensAt i k
  · obtain ⟨k, hk⟩ := hopen
    have hcurly : k ≠ .curly := by
      rintro rfl
      rw [show b.punctAt i "\x7b" = true from punctAt_of_opensAt hk] at hbrace
      cases hbrace
    obtain ⟨t, ht, hopens⟩ := Option.bind_eq_some_iff.1 hk
    rw [operandEnd?_of_opensAt hk hcurly, groupEnd?, ht]
    simp [hopens]
  · have hround : b.punctAt i "(" = false :=
      Bool.eq_false_iff.2 fun h => hopen ⟨.round, opensAt_of_punctAt h⟩
    have hsquare : b.punctAt i "[" = false :=
      Bool.eq_false_iff.2 fun h => hopen ⟨.square, opensAt_of_punctAt h⟩
    have hgroup : (b.at? i).any (·.opens?.isSome) = false := by
      refine Bool.eq_false_iff.2 fun h => hopen ?_
      obtain ⟨t, ht, hopens⟩ := (Option.any_eq_true _ _).1 h
      obtain ⟨k, hk⟩ := Option.isSome_iff_exists.1 hopens
      exact ⟨k, Option.bind_eq_some_iff.2 ⟨t, ht, hk⟩⟩
    rw [groupEnd?, hgroup, operandEnd?, punctInAt_pair, hround, hsquare]
    rfl

theorem lambdaBody?_group (hc : b.operandEnd? j = some c) :
    b.lambdaBody? (steps + 1) j arrow constant = b.lambdaBody? steps (c + 1) arrow constant := by
  have hopen := hc
  unfold operandEnd? at hopen
  split at hopen
  next hround =>
    obtain ⟨t, ht, hpunct⟩ := (Option.any_eq_true _ _).1 hround
    simp only [Lexeme.isPunctIn, Bool.and_eq_true, beq_iff_eq, List.contains_iff_mem] at hpunct
    have hbrace : t.isPunct "\x7b" = false := by
      refine Bool.eq_false_iff.2 fun h => ?_
      simp only [Lexeme.isPunct, Bool.and_eq_true, beq_iff_eq] at h
      rw [h.2] at hpunct
      exact absurd hpunct.2 (by decide)
    simp [lambdaBody?, ht, hbrace, hpunct.1, hc]
  next => cases hopen

theorem punctAt_of_name {s : String} (hname : b.nameAt j = true) : b.punctAt j s = false := by
  obtain ⟨t, ht, hword⟩ := (Option.any_eq_true _ _).1 hname
  have hkind : t.kind = .word := by simpa [Lexeme.isName] using hword
  simp [punctAt, ht, Lexeme.isPunct, hkind]

theorem lambdaBody?_name (hname : b.nameAt j = true) :
    ∃ constant', b.lambdaBody? (steps + 1) j arrow constant =
      b.lambdaBody? steps (j + 1) arrow constant' := by
  obtain ⟨t, ht, hword⟩ := (Option.any_eq_true _ _).1 hname
  have hkind : t.kind = .word := by simpa [Lexeme.isName] using hword
  exact ⟨_, by simp [lambdaBody?, ht, Lexeme.isPunct, Lexeme.isName, hkind]; rfl⟩

theorem lambdaBody?_words {n : Nat} (hwords : ∀ k, j ≤ k → k < j + n → b.nameAt k = true) :
    ∃ constant', b.lambdaBody? (steps + n) j arrow constant =
      b.lambdaBody? steps (j + n) arrow constant' := by
  induction n generalizing j constant with
  | zero => exact ⟨constant, rfl⟩
  | succ n ih =>
      obtain ⟨first, hstep⟩ : ∃ first, b.lambdaBody? (steps + n + 1) j arrow constant =
          b.lambdaBody? (steps + n) (j + 1) arrow first :=
        lambdaBody?_name (hwords j (Nat.le_refl j) (by omega))
      obtain ⟨last, hrest⟩ : ∃ last, b.lambdaBody? (steps + n) (j + 1) arrow first =
          b.lambdaBody? steps (j + 1 + n) arrow last :=
        ih fun k hk hlt => hwords k (by omega) (by omega)
      refine ⟨last, ?_⟩
      rw [← Nat.add_assoc, hstep, hrest, Nat.add_assoc, Nat.add_comm 1]

theorem lambdaBody?_arrow (harrow : b.punctAt j "->" = true) :
    b.lambdaBody? (steps + 1) j arrow constant = b.lambdaBody? steps (j + 1) true constant := by
  obtain ⟨t, ht, hpunct⟩ := punctAt_iff.1 harrow
  simp only [Lexeme.isPunct, Bool.and_eq_true, beq_iff_eq] at hpunct
  have hnone : b.operandEnd? j = none := by
    simp [operandEnd?, punctInAt, ht, Lexeme.isPunctIn, hpunct.2]
  simp [lambdaBody?, ht, Lexeme.isPunct, hpunct.1, hpunct.2, hnone]

/-- In a return type the look ahead goes on at every punctuator but these. -/
theorem lambdaBody?_punctuator {t : Lexeme} (ht : b.at? j = some t) (hkind : t.kind = .punctuator)
    (hgroup : b.operandEnd? j = none)
    (hplain : b.punctInAt j ["\x7b", "\x7d", ";", "="] = false)
    (hclose : ∀ k, ¬ b.closesAt j k) :
    b.lambdaBody? (steps + 1) j true constant = b.lambdaBody? steps (j + 1) true constant := by
  have hother : ∀ k : Bracket, t.text ≠ k.closer := fun k htext =>
    hclose k (closesAt_of_punctAt (by simp [punctAt, ht, Lexeme.isPunct, hkind, htext]))
  have hround : t.text ≠ ")" := hother .round
  have hsquare : t.text ≠ "]" := hother .square
  simp only [punctInAt, ht, Option.any_some, Lexeme.isPunctIn, hkind, beq_self_eq_true,
    Bool.true_and, List.contains_eq_mem, List.mem_cons, List.not_mem_nil, or_false,
    decide_eq_false_iff_not, not_or] at hplain
  simp [lambdaBody?, ht, Lexeme.isPunct, Lexeme.isPunctIn, hkind, hgroup, hplain, hround, hsquare]

/-- A return type is passed over unless a literal stands at its top level. -/
theorem Nested.lambdaBody?_returnType (hb : b.Nested)
    (hwords : ∀ k t, b.at? k = some t → t.kind ≠ .directive)
    (hbrace : b.punctAt body "\x7b" = true) (hj : j ≤ body) (hsteps : body - j < steps)
    (hplain : ∀ k, j ≤ k → k < body → b.punctInAt k ["\x7b", "\x7d", ";", "="] = false)
    (hbalanced : b.Balanced j body) :
    b.lambdaBody? steps j true constant =
      if (b.topLevel j body).any b.literalAt then none else some (body, constant) := by
  induction steps generalizing j with
  | zero => omega
  | succ steps ih =>
      rcases Nat.eq_or_lt_of_le hj with rfl | hlt
      · rw [lambdaBody?_brace hbrace, topLevel_def, if_neg (Nat.lt_irrefl j)]
        rfl
      have hstop := hplain j (Nat.le_refl j) hlt
      have hsize := Nat.lt_trans hlt (lt_size_of_punctAt hbrace)
      have ht : b.at? j = some b.lexemes[j] := Array.getElem?_eq_getElem hsize
      generalize b.lexemes[j] = t at ht
      rw [topLevel_def, if_pos hlt, groupEnd?_eq_operandEnd? (punctAt_eq_false hstop (by simp)),
        List.any_cons]
      cases hgroup : b.operandEnd? j with
      | some c =>
          have hclose := closer?_of_operandEnd? hgroup
          have hcj := Pairing.lt_of_closer? hclose
          obtain ⟨k, hopen, -⟩ := hb.matched (partner?_of_closer? hclose) hcj
          obtain ⟨c', hc', hcbody⟩ := hbalanced.closed j k (Nat.le_refl j) hlt hopen
          obtain rfl := Option.some.inj (hclose.symm.trans hc')
          have hliteral : b.literalAt j = false := by
            simp [literalAt, ht, (bracket_text ht (.inl hopen)).1]
          rw [lambdaBody?_group hgroup, hliteral, Bool.false_or, Option.getD_some]
          exact ih hcbody (by omega) (fun k hk => hplain k (by omega)) (hbalanced.behind hb hclose)
      | none =>
          have hstay : ∀ k, ¬ b.opensAt j k := by
            intro k hk
            have hcurly : k ≠ .curly := by
              rintro rfl
              have hbrace' : b.punctAt j "\x7b" = true := punctAt_of_opensAt hk
              exact Bool.eq_false_iff.1 hstop (punctInAt_of_punctAt hbrace' (by decide))
            obtain ⟨c, hc, -⟩ := hbalanced.closed j k (Nat.le_refl j) hlt hk
            rw [operandEnd?_of_opensAt hk hcurly, hc] at hgroup
            cases hgroup
          have hrest : b.lambdaBody? steps (j + 1) true constant =
              if (b.topLevel (j + 1) body).any b.literalAt then none else some (body, constant) :=
            ih hlt (by omega) (fun k hk => hplain k (by omega)) (hbalanced.succ hb hstay)
          rw [Option.getD_none]
          have hclose : ∀ k, ¬ b.closesAt j k := by
            intro k hk
            obtain ⟨p, hp, hpj⟩ := hbalanced.opened j k (Nat.le_refl j) hlt hk
            have := Pairing.lt_of_closer? hpj
            omega
          cases hkind : t.kind with
          | word =>
              have hliteral : b.literalAt j = false := by simp [literalAt, ht, hkind]
              rw [hliteral, Bool.false_or, ← hrest]
              simp [lambdaBody?, ht, Lexeme.isPunct, Lexeme.isName, hkind]
          | punctuator =>
              have hliteral : b.literalAt j = false := by simp [literalAt, ht, hkind]
              rw [hliteral, Bool.false_or, ← hrest]
              exact lambdaBody?_punctuator ht hkind hgroup hstop hclose
          | number | string | character =>
              have hliteral : b.literalAt j = true := by simp [literalAt, ht, hkind]
              rw [hliteral, Bool.true_or, if_pos rfl]
              simp [lambdaBody?, ht, Lexeme.isPunct, Lexeme.isName, hkind]
          | directive => exact absurd hkind (hwords j t ht)

end Bracketed

/-! ## Lambdas with a return type -/

namespace Bracketed

/-- The index behind the captures that end at index `close`, and behind the parameters if any
follow. -/
def behindParameters (b : Bracketed) (close : Nat) : Nat :=
  (b.roundEnd? (close + 1)).elim (close + 1) (· + 1)

/-- A lambda with a trailing return type: captures from index `i` to `close`, parameters or none,
words up to an arrow, and behind it, up to the brace of a body that is closed, tokens other than
curly brackets, semicolons and equals signs, their brackets balanced. -/
structure TrailingReturn (b : Bracketed) (i close arrow body : Nat) : Prop where
  opens : b.punctAt i "[" = true
  introduces : b.introducesLambda i = true
  bare : b.attributeEnd? i = none
  captures : b.closer? i = some close
  start_le : b.behindParameters close ≤ arrow
  words : ∀ k, b.behindParameters close ≤ k → k < arrow → b.nameAt k = true
  points : b.punctAt arrow "->" = true
  arrow_lt : arrow < body
  plain : ∀ k, arrow < k → k < body → b.punctInAt k ["\x7b", "\x7d", ";", "="] = false
  balanced : b.Balanced (arrow + 1) body
  brace : b.punctAt body "\x7b" = true
  paired : (b.closer? body).isSome
  /-- The look ahead makes a bounded number of steps behind the parameters. -/
  short : body - b.behindParameters close < maxLambdaSpecifiers

instance {b : Bracketed} {i close arrow body : Nat} :
    Decidable (b.TrailingReturn i close arrow body) :=
  decidable_of_iff
    (b.punctAt i "[" = true ∧ b.introducesLambda i = true ∧ b.attributeEnd? i = none ∧
      b.closer? i = some close ∧ b.behindParameters close ≤ arrow ∧
      (∀ k < arrow, b.behindParameters close ≤ k → b.nameAt k = true) ∧
      b.punctAt arrow "->" = true ∧ arrow < body ∧
      (∀ k < body, arrow < k → b.punctInAt k ["\x7b", "\x7d", ";", "="] = false) ∧
      b.Balanced (arrow + 1) body ∧ b.punctAt body "\x7b" = true ∧ (b.closer? body).isSome ∧
      body - b.behindParameters close < maxLambdaSpecifiers)
    ⟨fun ⟨opens, introduces, bare, captures, start_le, words, points, arrow_lt, plain, balanced,
        brace, paired, short⟩ =>
      ⟨opens, introduces, bare, captures, start_le, fun k hk hlt => words k hlt hk, points,
        arrow_lt, fun k hk hlt => plain k hlt hk, balanced, brace, paired, short⟩,
    fun h => ⟨h.opens, h.introduces, h.bare, h.captures, h.start_le,
      fun k hlt hk => h.words k hk hlt, h.points, h.arrow_lt, fun k hlt hk => h.plain k hk hlt,
      h.balanced, h.brace, h.paired, h.short⟩⟩

namespace TrailingReturn

variable {b : Bracketed} {i close arrow body : Nat} {enclosing : Scope}

/-- Behind the captures stand parameters, a word or the arrow. -/
theorem next (h : b.TrailingReturn i close arrow body) :
    (∃ c, b.roundEnd? (close + 1) = some c ∧ b.behindParameters close = c + 1) ∨
      b.behindParameters close = close + 1 ∧
        (b.nameAt (close + 1) = true ∨ b.punctAt (close + 1) "->" = true) := by
  cases hc : b.roundEnd? (close + 1) with
  | some c => exact .inl ⟨c, rfl, by rw [behindParameters, hc]; rfl⟩
  | none =>
      have hstart : b.behindParameters close = close + 1 := by rw [behindParameters, hc]; rfl
      have hle := h.start_le
      rw [hstart] at hle
      refine .inr ⟨hstart, ?_⟩
      rcases Nat.eq_or_lt_of_le hle with heq | hlt
      · exact .inr (heq ▸ h.points)
      · exact .inl (h.words _ (Nat.le_of_eq hstart) hlt)

theorem close_lt (h : b.TrailingReturn i close arrow body) : close < b.behindParameters close := by
  rcases h.next with ⟨c, hc, hstart⟩ | ⟨hstart, -⟩
  · have := Pairing.lt_of_closer? (closer?_of_roundEnd? hc)
    omega
  · omega

/-- The way from the parameters to the body. -/
theorem lambdaBody? (h : b.TrailingReturn i close arrow body) (hb : b.Nested)
    (hwords : ∀ k t, b.at? k = some t → t.kind ≠ .directive) :
    ∃ constant, b.lambdaBody? maxLambdaSpecifiers (b.behindParameters close) false false =
      if (b.topLevel (arrow + 1) body).any b.literalAt then none else some (body, constant) := by
  have hlt := h.arrow_lt
  have hshort := h.short
  obtain ⟨n, hn⟩ := Nat.exists_eq_add_of_le h.start_le
  obtain ⟨steps, hsteps⟩ : ∃ steps, maxLambdaSpecifiers = steps + 1 + n :=
    ⟨maxLambdaSpecifiers - 1 - n, by omega⟩
  obtain ⟨constant, hbefore⟩ : ∃ constant,
      b.lambdaBody? (steps + 1 + n) (b.behindParameters close) false false =
        b.lambdaBody? (steps + 1) (b.behindParameters close + n) false constant :=
    lambdaBody?_words fun k hk hkn => h.words k hk (by omega)
  refine ⟨constant, ?_⟩
  rw [hsteps, hbefore, ← hn, lambdaBody?_arrow h.points]
  exact hb.lambdaBody?_returnType hwords h.brace hlt (by omega) (fun k hk => h.plain k hk)
    h.balanced

theorem ahead (h : b.TrailingReturn i close arrow body) (enclosing : Scope) :
    ∃ template, (b.lambdaAhead enclosing i).body =
      lambdaAhead.finish b enclosing (b.behindParameters close) template none := by
  have hangle : b.punctAt (close + 1) "<" = false := by
    rcases h.next with ⟨c, hc, -⟩ | ⟨-, hname | harrow⟩
    · exact punctAt_unique (punctAt_of_roundEnd? hc) (by decide)
    · exact punctAt_of_name hname
    · exact punctAt_unique harrow (by decide)
  have htemplate : b.lambdaTemplate? (close + 1) = some (close + 1, none) := by
    simp [lambdaTemplate?, hangle]
  simp only [lambdaAhead, partner?_of_closer? h.captures, htemplate]
  rcases h.next with ⟨c, hc, hstart⟩ | ⟨hstart, hnext⟩
  · rw [if_pos (punctAt_of_roundEnd? hc), closer?_of_roundEnd? hc, hstart]
    exact ⟨_, rfl⟩
  · have hround : b.punctAt (close + 1) "(" = false :=
      hnext.elim punctAt_of_name fun harrow => punctAt_unique harrow (by decide)
    rw [hround, hstart]
    exact ⟨_, rfl⟩

/-- The look ahead from the introducer finds the body unless a literal is in the way. -/
theorem body_ahead (h : b.TrailingReturn i close arrow body) (hb : b.Nested)
    (hwords : ∀ k t, b.at? k = some t → t.kind ≠ .directive) (enclosing : Scope) :
    (b.lambdaAhead enclosing i).body.map (·.opener) =
      if (b.topLevel (arrow + 1) body).any b.literalAt then none else some body := by
  obtain ⟨template, hfinish⟩ := h.ahead enclosing
  obtain ⟨constant, hbody⟩ := h.lambdaBody? hb hwords
  rw [hfinish, lambdaAhead.finish, hbody]
  cases (b.topLevel (arrow + 1) body).any b.literalAt with
  | true => rfl
  | false =>
      simp only [Bool.false_eq_true, if_false, h.paired, if_true]
      rfl

/-- Every group that opens before the body, from the introducer on, is closed before it. -/
theorem groups (h : b.TrailingReturn i close arrow body) (hb : b.Nested) {p c : Nat} (hip : i ≤ p)
    (hp : p < body) (hc : b.closer? p = some c) : c < body := by
  have hclose := h.close_lt
  have hle := h.start_le
  have hlt := h.arrow_lt
  have hpartner := partner?_of_closer? hc
  rcases Nat.lt_or_ge close p with hbehind | hin
  · rcases Nat.lt_or_ge p (b.behindParameters close) with hparameters | hstart
    · rcases h.next with ⟨q, hq, hend⟩ | ⟨hend, -⟩
      · have := hb.closer?_le (closer?_of_roundEnd? hq) hbehind (by omega) hc
        omega
      · omega
    rcases Nat.lt_trichotomy p arrow with hword | rfl | htype
    · rw [hb.partner?_of_name (h.words p hstart hword)] at hpartner
      cases hpartner
    · rw [hb.partner?_of_punctAt h.points (by decide)] at hpartner
      cases hpartner
    · obtain ⟨kind, hopen, -⟩ := hb.matched hpartner (Pairing.lt_of_closer? hc)
      obtain ⟨c', hc', hcbody⟩ := h.balanced.closed p kind htype hp hopen
      obtain rfl := Option.some.inj (hc.symm.trans hc')
      exact hcbody
  · have := hb.closer?_le h.captures hip hin hc
    omega

theorem lt_body (h : b.TrailingReturn i close arrow body) : i < body := by
  have := Pairing.lt_of_closer? h.captures
  have := h.close_lt
  have := h.start_le
  have := h.arrow_lt
  omega

theorem isSome_partner? (h : b.TrailingReturn i close arrow body) :
    (b.pairs.partner? body).isSome := by
  obtain ⟨c, hc⟩ := Option.isSome_iff_exists.1 h.paired
  rw [partner?_of_closer? hc]
  rfl

theorem announces (h : b.TrailingReturn i close arrow body) {scope : Scope}
    (hscope : (b.lambdaAhead enclosing i).body = some scope) : b.Announces enclosing i scope :=
  ⟨h.opens, h.bare, h.introduces, hscope⟩

end TrailingReturn

end Bracketed

theorem kind_ne_directive_of_ofText {text : String} {k : Nat} {t : Lexeme}
    (ht : (Bracketed.ofText text).at? k = some t) : t.kind ≠ .directive := by
  rw [Source.at?_ofText "" k] at ht
  obtain ⟨token, htoken, rfl⟩ := Option.map_eq_some_iff.1 ht
  exact (Source.mem_tokens_of_words htoken).2

/-- In every text, a lambda with a trailing return type is cut out, from its introducer to the
token before the brace, and its brace opens the scope of a lambda, if no literal stands at the top
level of the return type.  If one does, no lambda is cut out from that introducer, and the brace
opens the scope of a lambda only if another lambda is cut out up to it. -/
theorem literals_hide_lambdas (name : String) {text : String} {i close arrow body : Nat}
    {s : ScanState} (h : Boundary (.ofText text) i s)
    (hlambda : (Bracketed.ofText text).TrailingReturn i close arrow body) :
    ((∀ k ∈ (Bracketed.ofText text).topLevel (arrow + 1) body,
        (Bracketed.ofText text).literalAt k = false) →
      (∃ f ∈ (scan name text).fragments, f.kind = .captureList ∧
        (Source.ofText name text).Window f i (body - 1)) ∧
      ∃ scope, (Bracketed.ofText text).Opens scope ∧ scope.opener = body ∧ scope.kind = .lambda) ∧
    ((∃ k ∈ (Bracketed.ofText text).topLevel (arrow + 1) body,
        (Bracketed.ofText text).literalAt k = true) →
      (∀ f ∈ (scan name text).fragments, f.kind = .captureList →
        ∀ last, ¬ (Source.ofText name text).Window f i last) ∧
      ∀ scope, (Bracketed.ofText text).Opens scope → scope.opener = body → scope.kind = .lambda →
        ∃ f ∈ (scan name text).fragments, f.kind = .captureList ∧
          ∃ first, first ≠ i ∧ (Source.ofText name text).Window f first (body - 1)) := by
  have hb : (Bracketed.ofText text).Nested := Bracketed.nested_ofLexemes _
  have hahead := hlambda.body_ahead hb (fun _ _ => kind_ne_directive_of_ofText) s.scope
  refine ⟨fun hplain => ?_, fun hliteral => ?_⟩
  · have hnone : ((Bracketed.ofText text).topLevel (arrow + 1) body).any
        (Bracketed.ofText text).literalAt = false :=
      List.any_eq_false.2 fun k hk => by simp [hplain k hk]
    rw [hnone] at hahead
    obtain ⟨scope, hscope, rfl⟩ := Option.map_eq_some_iff.1 hahead
    have hannounces := hlambda.announces hscope
    have hbehind := hlambda.lt_body
    obtain ⟨t, ht⟩ := h.exists_at_brace (Nat.le_of_lt hbehind) hlambda.brace
      fun p c hip hp hc => hlambda.groups hb hip hp hc
    have hexpects := h.expects hannounces ht hbehind (Nat.le_refl _)
    exact ⟨Source.fragment_of_announces name h hannounces,
      ht.opens_lambda hexpects hlambda.brace hlambda.isSome_partner?⟩
  · rw [List.any_eq_true.2 hliteral] at hahead
    -- nothing is announced at the introducer
    have hnothing : ∀ scope, ¬ (Bracketed.ofText text).Announces s.scope i scope := by
      intro scope hannounces
      rw [hannounces.ahead] at hahead
      cases hahead
    refine ⟨fun f hf hkind last hwindow => ?_, fun scope hopens hopener hkind => ?_⟩
    · obtain ⟨i', s', scope, hs', hannounces, -, hwindow'⟩ := Source.exists_lambda hf hkind
      obtain ⟨rfl, -⟩ := hwindow.unique hwindow'
      obtain rfl := h.unique hs'
      exact hnothing scope hannounces
    · obtain ⟨first, s', announced, hs', hannounces, hsame⟩ := hopens.announced hkind
      obtain ⟨f, hf, hcaptures, hwindow⟩ := Source.fragment_of_announces name hs' hannounces
      rw [hsame, hopener] at hwindow
      refine ⟨f, hf, hcaptures, first, ?_, hwindow⟩
      rintro rfl
      obtain rfl := h.unique hs'
      exact hnothing announced hannounces

/-- A lambda with parameters and a specifier, that returns an array of as many values as a name
says. -/
theorem literals_hide_lambdas_named_bound :
    ∃ (text : String) (s : ScanState),
      text =
        "auto f = [x](int n) mutable -> std::array<decltype(n), N> \x7b return \x7b\x7d; \x7d;" ∧
      Boundary (.ofText text) 3 s ∧ (Bracketed.ofText text).TrailingReturn 3 5 11 23 ∧
      (∀ k ∈ (Bracketed.ofText text).topLevel 12 23,
        (Bracketed.ofText text).literalAt k = false) ∧
      (∃ f ∈ (scan "a.cpp" text).fragments, f.kind = .captureList ∧
        (Source.ofText "a.cpp" text).Window f 3 22) ∧
      ∃ scope, (Bracketed.ofText text).Opens scope ∧ scope.opener = 23 ∧ scope.kind = .lambda := by
  generalize htext :
    "auto f = [x](int n) mutable -> std::array<decltype(n), N> \x7b return \x7b\x7d; \x7d;" = text
  have h : Boundary (.ofText text) 3 ((Bracketed.ofText text).after 3).2 := .of_after (by
    rw [← htext]
    decide +kernel)
  have hlambda : (Bracketed.ofText text).TrailingReturn 3 5 11 23 := by
    rw [← htext]
    decide +kernel
  have hplain : ∀ k ∈ (Bracketed.ofText text).topLevel 12 23,
      (Bracketed.ofText text).literalAt k = false := by
    rw [← htext]
    decide +kernel
  obtain ⟨hfragment, hscope⟩ := (literals_hide_lambdas "a.cpp" h hlambda).1 hplain
  exact ⟨text, _, rfl, h, hlambda, hplain, hfragment, hscope⟩

/-- A lambda that returns an array is cut out if the bound of the array is a name.  If it is a
number the lambda is not, and its brace opens no scope of a lambda. -/
theorem numeric_bound_hides_lambda :
    (∃ f ∈ (scan "a.cpp"
        "auto f = [] -> std::array<int, N> \x7b return \x7b\x7d; \x7d;").fragments,
      f.kind = .captureList) ∧
    ∃ (text : String) (s : ScanState),
      text = "auto f = [] -> std::array<int, 3> \x7b return \x7b\x7d; \x7d;" ∧
      Boundary (.ofText text) 3 s ∧ (Bracketed.ofText text).TrailingReturn 3 4 5 14 ∧
      (∀ f ∈ (scan "a.cpp" text).fragments, f.kind ≠ .captureList) ∧
      ∀ scope, (Bracketed.ofText text).Opens scope → scope.kind ≠ .lambda := by
  refine ⟨?_, ?_⟩
  · rw [scan_fragments_eq (by decide +kernel)]
    decide +kernel
  generalize htext : "auto f = [] -> std::array<int, 3> \x7b return \x7b\x7d; \x7d;" = text
  have h : Boundary (.ofText text) 3 ((Bracketed.ofText text).after 3).2 := .of_after (by
    rw [← htext]
    decide +kernel)
  have hlambda : (Bracketed.ofText text).TrailingReturn 3 4 5 14 := by
    rw [← htext]
    decide +kernel
  have hnone : ∀ f ∈ (scan "a.cpp" text).fragments, f.kind ≠ .captureList := by
    rw [← htext, scan_fragments_eq (by decide +kernel)]
    decide +kernel
  refine ⟨text, _, rfl, h, hlambda, hnone, fun scope hopens hkind => ?_⟩
  obtain ⟨i, s, body, hs, hannounces, -⟩ := hopens.announced hkind
  obtain ⟨f, hf, hcaptures, -⟩ := Source.fragment_of_announces "a.cpp" hs hannounces
  exact hnone f hf hcaptures

end CxxFloor
