/-
# Tokens before a space

A token that is read somewhere in a text is read again where it stands before
a space or at the end (`recognise_spaced`).  What the recognisers look at
behind a token ends it already, a space ends it as well, and none of the
longer tokens that they try first has a space in it.

Two tokens need care.  A single quote or an exponent sign belongs to a number
because of the characters around it, so these have to be in the number too
(`numberTail_spaced`).  A hash is a token only if the line is not fresh, which
the space does not decide.
-/
import CxxFloor.Proofs.Token.Abandoned
import CxxFloor.Proofs.Token.Spelling

namespace CxxFloor

def Spaced (more : List Char) : Prop := ∀ c, more.head? = some c → c = ' '

namespace Spaced

variable {cs more : List Char}

theorem nil : Spaced [] := by
  intro c hc
  cases hc

theorem space (more : List Char) : Spaced (' ' :: more) :=
  fun _ hc => (Option.some.inj hc).symm

theorem any_head? {p : Char → Bool} (h : Spaced more) (hp : p ' ' = false) :
    more.head?.any p = false := by
  cases hmore : more.head? with
  | none => rfl
  | some c =>
      obtain rfl := h c hmore
      exact hp

/-- What is asked of the next character has the same answer before a space, if the text is not cut
off before a character that has it. -/
theorem any_head?_take {p : Char → Bool} {n : Nat} (h : Spaced more) (hp : p ' ' = false)
    (hn : ∀ c ds, cs = c :: ds → p c = true → 0 < n) :
    (cs.take n ++ more).head?.any p = cs.head?.any p := by
  cases cs with
  | nil =>
      rw [List.take_nil, List.nil_append]
      exact h.any_head? hp
  | cons c cs =>
      cases n with
      | succ n => rfl
      | zero =>
          rw [List.take_zero, List.nil_append, h.any_head? hp]
          cases hc : p c with
          | false => exact hc.symm
          | true => exact absurd (hn c cs rfl hc) (Nat.lt_irrefl 0)

theorem takeWhile_eq_nil {p : Char → Bool} (h : Spaced more) (hp : p ' ' = false) :
    more.takeWhile p = [] := by
  cases more with
  | nil => rfl
  | cons c more =>
      obtain rfl := h c rfl
      rw [List.takeWhile_cons, hp]
      rfl

theorem exists_cons_of_take {n : Nat} {d : Char} {ds : List Char} (h : Spaced more)
    (heq : cs.take n ++ more = d :: ds) (hd : d ≠ ' ') : ∃ ds', cs = d :: ds' := by
  cases hcs : cs.take n with
  | nil =>
      rw [hcs, List.nil_append] at heq
      exact absurd (h d (by rw [heq]; rfl)) hd
  | cons c cs' =>
      rw [hcs, List.cons_append] at heq
      obtain ⟨rfl, -⟩ := List.cons_eq_cons.1 heq
      obtain ⟨rest, hrest⟩ := List.take_prefix n cs
      rw [hcs, List.cons_append] at hrest
      exact ⟨_, hrest.symm⟩

theorem prefix_of_append {q : List Char} (h : Spaced more) (hq : ' ' ∉ q)
    (hpre : q <+: cs ++ more) : q <+: cs := by
  by_cases hle : q.length ≤ cs.length
  · exact List.prefix_of_prefix_length_le hpre (List.prefix_append cs more) hle
  cases more with
  | nil => rwa [List.append_nil] at hpre
  | cons c more =>
      obtain rfl := h c rfl
      have hall : cs ++ [' '] <+: cs ++ ' ' :: more :=
        (List.prefix_append_right_inj cs).2 (List.prefix_append [' '] more)
      have hlength : (cs ++ [' ']).length ≤ q.length := by
        rw [List.length_append, List.length_singleton]
        omega
      have hspace : cs ++ [' '] <+: q := List.prefix_of_prefix_length_le hall hpre hlength
      exact absurd (hspace.subset (by simp)) hq

end Spaced

theorem find?_of_imp {α : Type} {p q : α → Bool} {l : List α} {a : α} (h : l.find? p = some a)
    (ha : q a = true) (himp : ∀ b ∈ l, q b = true → p b = true) : l.find? q = some a := by
  obtain ⟨-, before, behind, rfl, hbefore⟩ := List.find?_eq_some_iff_append.1 h
  refine List.find?_eq_some_iff_append.2 ⟨ha, before, behind, rfl, fun b hb => ?_⟩
  have hp := hbefore b hb
  have hq := himp b (List.mem_append_left _ hb)
  cases hqb : q b with
  | false => rfl
  | true =>
      rw [hq hqb] at hp
      exact hp

/-! ## Extents -/

namespace Extent

variable {cs more : List Char}

theorem word_spaced (h : Spaced more) : word (cs.take (word cs) ++ more) = word cs := by
  unfold word
  have hall : ∀ c ∈ cs.takeWhile Text.continuesWord, Text.continuesWord c = true :=
    fun c hc => List.all_eq_true.1 List.all_takeWhile c hc
  rw [← List.prefix_iff_eq_take.1 (List.takeWhile_prefix _), List.takeWhile_append_of_pos hall,
    h.takeWhile_eq_nil (by decide), List.append_nil]

/-- A literal ends with its closing quote, so it is the same when nothing follows. -/
theorem quotation_take {quote : Char} {n : Nat} (h : quotation quote cs = .closed n) :
    0 < n ∧ quotation quote (cs.take n) = .closed n := by
  fun_induction quotation quote cs generalizing n with
  | case1 => cases h
  | case2 => cases h
  | case3 => cases h
  | case4 c rest ih =>
      obtain ⟨m, hm, rfl⟩ := closed_of_shift h
      rw [Nat.add_comm, List.take_succ_cons, List.take_succ_cons, quotation, (ih hm).2,
        Nat.add_comm]
      exact ⟨by omega, rfl⟩
  | case5 rest hfeed hnil hcons =>
      cases h
      rw [List.take_succ_cons, quotation_cons hfeed (ne_backslash hnil hcons), if_pos rfl]
      exact ⟨Nat.one_pos, rfl⟩
  | case6 c rest hfeed hnil hcons hc ih =>
      obtain ⟨m, hm, rfl⟩ := closed_of_shift h
      rw [Nat.add_comm, List.take_succ_cons, quotation_cons hfeed (ne_backslash hnil hcons),
        if_neg hc, (ih hm).2, Nat.add_comm]
      exact ⟨by omega, rfl⟩

theorem firstOccurrence?_take {p : List Char} (hp : p ≠ []) {n : Nat}
    (h : firstOccurrence? p cs = some n) :
    firstOccurrence? p (cs.take (n + p.length)) = some n := by
  induction cs generalizing n with
  | nil =>
      unfold firstOccurrence? at h
      split at h
      next hempty => exact absurd (List.isEmpty_iff.1 hempty) hp
      next => cases h
  | cons c cs ih =>
      unfold firstOccurrence? at h
      split at h
      next hpre =>
        cases h
        have hpre := List.isPrefixOf_iff_prefix.1 hpre
        rw [Nat.zero_add, ← List.prefix_iff_eq_take.1 hpre]
        cases p with
        | nil => exact absurd rfl hp
        | cons d p => rw [firstOccurrence?, if_pos (List.isPrefixOf_iff_prefix.2 List.prefix_rfl)]
      next hpre =>
        obtain ⟨m, hm, rfl⟩ := Option.map_eq_some_iff.1 h
        rw [show 1 + m + p.length = m + p.length + 1 by omega, List.take_succ_cons,
          firstOccurrence?, if_neg, ih hm]
        · rfl
        · intro hpre'
          refine hpre (List.isPrefixOf_iff_prefix.2 ?_)
          rw [← List.take_succ_cons] at hpre'
          exact (List.isPrefixOf_iff_prefix.1 hpre').trans (List.take_prefix _ _)

theorem takeWhile_delimiter {d : List Char} (hopen : '(' ∉ d) (hfeed : '\n' ∉ d)
    (more : List Char) : (d ++ more).takeWhile (fun c => c ≠ '(' && c ≠ '\n') =
      d ++ more.takeWhile (fun c => c ≠ '(' && c ≠ '\n') := by
  refine List.takeWhile_append_of_pos fun c hc => ?_
  have hopen : c ≠ '(' := fun heq => hopen (heq ▸ hc)
  have hfeed : c ≠ '\n' := fun heq => hfeed (heq ▸ hc)
  simp [hopen, hfeed]

/-! ### Numbers -/

/-- The number that `previous` belongs to goes on with `c`, before the character `next?`. -/
def continuesNumber (hexadecimal : Bool) (previous c : Char) (next? : Option Char) : Bool :=
  if (c == '+' || c == '-') && ['e', 'E', 'p', 'P'].contains previous then
    !(hexadecimal && ['e', 'E'].contains previous)
  else c == Char.ofNat 39 && next?.any Text.isAlphanumeric || (c == '.' || Text.continuesWord c)

theorem numberTail_cons {hexadecimal : Bool} {previous c : Char} :
    numberTail hexadecimal previous (c :: cs) =
      if continuesNumber hexadecimal previous c cs.head? then 1 + numberTail hexadecimal c cs
      else 0 := by
  unfold continuesNumber
  rw [numberTail]
  split
  · cases hexadecimal && ['e', 'E'].contains previous <;> rfl
  · by_cases hquote : (c == Char.ofNat 39 && cs.head?.any Text.isAlphanumeric) = true
    · rw [if_pos hquote, hquote]
      rfl
    · rw [if_neg hquote]
      simp only [Bool.not_eq_true] at hquote
      rw [hquote]
      rfl

theorem numberTail_pos {hexadecimal : Bool} {previous c : Char} (hc : Text.continuesWord c = true) :
    0 < numberTail hexadecimal previous (c :: cs) := by
  have hplus : c ≠ '+' := by
    rintro rfl
    exact absurd hc (by decide)
  have hminus : c ≠ '-' := by
    rintro rfl
    exact absurd hc (by decide)
  rw [numberTail_cons, if_pos (by simp [continuesNumber, hplus, hminus, hc])]
  omega

theorem numberTail_of_spaced {hexadecimal : Bool} {previous : Char} (h : Spaced more) :
    numberTail hexadecimal previous more = 0 := by
  cases more with
  | nil => rfl
  | cons c more =>
      obtain rfl := h c rfl
      have hword : Text.continuesWord ' ' = false := by decide
      rw [numberTail_cons, if_neg (by simp [continuesNumber, hword])]

theorem numberTail_spaced {hexadecimal : Bool} {previous : Char} (h : Spaced more) :
    numberTail hexadecimal previous (cs.take (numberTail hexadecimal previous cs) ++ more) =
      numberTail hexadecimal previous cs := by
  induction cs generalizing previous with
  | nil =>
      rw [List.take_nil, List.nil_append]
      exact numberTail_of_spaced h
  | cons c cs ih =>
      rw [numberTail_cons]
      split
      next hgoes =>
        -- an alphanumeric character behind a quote is in the number
        have hnext : (cs.take (numberTail hexadecimal c cs) ++ more).head?.any Text.isAlphanumeric
            = cs.head?.any Text.isAlphanumeric := by
          refine h.any_head?_take (by decide) ?_
          rintro d ds rfl hd
          exact numberTail_pos (by simp [Text.continuesWord, hd])
        rw [Nat.add_comm 1, List.take_succ_cons, List.cons_append, numberTail_cons, if_pos, ih]
        · omega
        · rw [← hgoes]
          unfold continuesNumber
          rw [hnext]
      next =>
        rw [List.take_zero, List.nil_append]
        exact numberTail_of_spaced h

theorem startsHexadecimal_cons {c : Char} :
    startsHexadecimal (c :: cs) = (c == '0' && cs.head?.any fun x => x == 'x' || x == 'X') := by
  cases cs with
  | nil => simp [startsHexadecimal]
  | cons d cs => 
      by_cases hc : c = '0'
      · subst hc
        rfl
      · simp [startsHexadecimal, hc]

theorem number_spaced {c : Char} {rest : List Char} (h : Spaced more) :
    number ((c :: rest).take (number (c :: rest)) ++ more) = number (c :: rest) := by
  have hmark : ∀ hexadecimal,
      startsHexadecimal (c :: (rest.take (numberTail hexadecimal c rest) ++ more))
        = startsHexadecimal (c :: rest) := by
    intro hexadecimal
    rw [startsHexadecimal_cons, startsHexadecimal_cons, h.any_head?_take (by decide)]
    rintro d ds rfl hd
    refine numberTail_pos ?_
    rcases Bool.or_eq_true_iff.1 hd with hd | hd
    all_goals
      obtain rfl := beq_iff_eq.1 hd
      decide
  rw [number, Nat.add_comm, List.take_succ_cons, List.cons_append, number, hmark,
    numberTail_spaced h]
  omega

end Extent

/-! ## Recognisers -/

namespace Piece

open Extent

variable {cs more : List Char}

theorem tokenOf_spaced {kind : TokenKind} {n : Nat} (h : n ≤ cs.length) (more : List Char) :
    tokenOf kind (cs.take n ++ more) n = tokenOf kind cs n := by
  have hlength : (cs.take n).length = n := List.length_take_of_le h
  unfold tokenOf
  rw [List.take_append_of_le_length (Nat.le_of_eq hlength.symm), List.take_take, Nat.min_self]

theorem drop_take_append {k m : Nat} (h : k ≤ cs.length) (more : List Char) :
    (cs.take (k + m) ++ more).drop k = (cs.drop k).take m ++ more := by
  rw [List.drop_append_of_le_length (by rw [List.length_take]; omega), List.drop_take,
    Nat.add_sub_cancel_left]

theorem quotation_spaced {before n : Nat} {quote : Char} {lexeme : Lexeme}
    (hlt : before < cs.length) (h : quotation before quote cs = (.token lexeme, n))
    (more : List Char) :
    before < n ∧ quotation before quote (cs.take n ++ more) = (.token lexeme, n) := by
  unfold quotation at h
  split at h
  next m hm =>
    obtain ⟨-, htake⟩ := quotation_take hm
    obtain ⟨hmore, -⟩ := Extent.quotation_append htake more
    have hle := (Extent.quotation_append hm []).2
    rw [List.length_drop] at hle
    have hn : before + 1 + m = n := congrArg Prod.snd h
    rw [← hn] at h ⊢
    unfold quotation
    rw [drop_take_append hlt, hmore]
    exact ⟨by omega, (tokenOf_spaced (by omega) more).trans h⟩
  next => cases h

/-- A raw string that is taken apart: its delimiter, and what stands behind the parenthesis. -/
structure RawParts (inside d body : List Char) (n : Nat) : Prop where
  inside_eq : inside = d ++ '(' :: body
  notMem : '(' ∉ d ∧ '\n' ∉ d
  length_le : d.length ≤ maxDelimiter
  closes : firstOccurrence? (rawTerminator d) body = some n

theorem RawParts.rawString {before n : Nat} {d body : List Char}
    (h : RawParts (cs.drop (before + 1)) d body n) :
    rawString before cs = tokenOf .string cs (before + 1 + d.length + 1 + n + (d.length + 2)) := by
  have hdelimiter : rawDelimiter (d ++ '(' :: body) = d := by
    have hstop : ('(' :: body).takeWhile (fun c => c ≠ '(' && c ≠ '\n') = [] := rfl
    rw [rawDelimiter, takeWhile_delimiter h.notMem.1 h.notMem.2, hstop, List.append_nil,
      List.take_of_length_le h.length_le]
  unfold Piece.rawString
  simp only [h.inside_eq, hdelimiter, List.drop_left, h.closes]

theorem exists_rawParts {before n : Nat} {lexeme : Lexeme}
    (h : rawString before cs = (.token lexeme, n)) : ∃ d body m,
      RawParts (cs.drop (before + 1)) d body m ∧
        n = before + 1 + d.length + 1 + m + (d.length + 2) := by
  unfold rawString at h
  dsimp only at h
  split at h
  next body hbody =>
    split at h
    next m hm =>
      have hprefix : rawDelimiter (cs.drop (before + 1)) <+: cs.drop (before + 1) :=
        (List.take_prefix _ _).trans (List.takeWhile_prefix _)
      have hsplit := List.prefix_iff_eq_append.1 hprefix
      rw [hbody] at hsplit
      exact ⟨_, body, m, ⟨hsplit.symm, notMem_rawDelimiter _, List.length_take_le _ _, hm⟩,
        (congrArg Prod.snd h).symm⟩
    next => cases h
  next => cases h

theorem rawString_spaced {before n : Nat} {lexeme : Lexeme} (hlt : before < cs.length)
    (h : rawString before cs = (.token lexeme, n)) (more : List Char) :
    before < n ∧ rawString before (cs.take n ++ more) = (.token lexeme, n) := by
  obtain ⟨d, body, m, hparts, hn⟩ := exists_rawParts h
  have hterminator : (rawTerminator d).length = d.length + 2 := by simp [rawTerminator]
  have hne : rawTerminator d ≠ [] := List.cons_ne_nil _ _
  have hlength := congrArg List.length hparts.inside_eq
  have hbody := (firstOccurrence?_append hne hparts.closes []).2
  rw [List.length_drop, List.length_append, List.length_cons] at hlength
  have hclosed := firstOccurrence?_take hne hparts.closes
  have hspaced : RawParts ((cs.take n ++ more).drop (before + 1)) d
      (body.take (m + (rawTerminator d).length) ++ more) m := by
    refine ⟨?_, hparts.notMem, hparts.length_le, (firstOccurrence?_append hne hclosed more).1⟩
    rw [hn, show before + 1 + d.length + 1 + m + (d.length + 2)
      = before + 1 + (d.length + (m + (rawTerminator d).length + 1)) by omega,
      drop_take_append hlt, hparts.inside_eq, List.take_length_add_append, List.take_succ_cons]
    rw [List.append_assoc, List.cons_append]
  rw [hspaced.rawString, ← h, hparts.rawString, ← hn]
  exact ⟨by omega, tokenOf_spaced (by omega) more⟩

theorem trivia?_spaced {c : Char} {rest : List Char} (h : Spaced more) (n : Nat)
    (hnone : trivia? (c :: rest) = none) : trivia? (c :: (rest.take n ++ more)) = none := by
  obtain ⟨hlayout, hsplice⟩ := of_trivia?_eq_none hnone
  rw [trivia?_cons, if_neg (by simp [hlayout])]
  · rintro ds rfl heq
    obtain ⟨ds', rfl⟩ := h.exists_cons_of_take heq (by decide)
    exact hsplice rfl rfl
  · rintro ds rfl heq
    obtain ⟨ds', rfl⟩ := h.exists_cons_of_take heq (by decide)
    cases hnone
  · rintro ds rfl heq
    obtain ⟨ds', rfl⟩ := h.exists_cons_of_take heq (by decide)
    rw [trivia?] at hnone
    split at hnone <;> cases hnone

/-- The text announces a literal with the prefix `p`. -/
def announces (cs p : List Char) : Bool :=
  p.isPrefixOf cs &&
    match cs[p.length]? with
    | some '"' => true
    | some c => c == Text.singleQuote && !p.contains 'R'
    | none => false

theorem literalPrefix?_eq_find? (cs : List Char) :
    literalPrefix? cs = encodingPrefixes.find? (announces cs) := rfl

theorem announces_iff {p : List Char} : announces cs p = true ↔ ∃ quote,
    (quote = '"' ∨ quote = Text.singleQuote ∧ 'R' ∉ p) ∧ p ++ [quote] <+: cs := by
  unfold announces
  rw [Bool.and_eq_true, List.isPrefixOf_iff_prefix]
  constructor
  · rintro ⟨⟨rest, rfl⟩, hquote⟩
    rw [List.getElem?_append_right (Nat.le_refl _), Nat.sub_self] at hquote
    cases rest with
    | nil => cases hquote
    | cons quote inside =>
        refine ⟨quote, ?_, inside, by simp⟩
        rw [List.getElem?_cons_zero] at hquote
        split at hquote
        next heq => exact .inl (Option.some.inj heq)
        next c hc heq =>
          obtain rfl := Option.some.inj heq
          exact .inr (by simpa using hquote)
        next heq => cases heq
  · rintro ⟨quote, hquote, rest, rfl⟩
    rw [List.append_assoc, List.getElem?_append_right (Nat.le_refl _), Nat.sub_self]
    refine ⟨List.prefix_append _ _, ?_⟩
    rcases hquote with rfl | ⟨rfl, hraw⟩
    · rfl
    · show (Text.singleQuote == Text.singleQuote && !p.contains 'R') = true
      simp [hraw]

theorem space_notMem_announced {p : List Char} {quote : Char} (hp : p ∈ encodingPrefixes)
    (hquote : quote = '"' ∨ quote = Text.singleQuote ∧ 'R' ∉ p) : ' ' ∉ p ++ [quote] := by
  have hall : ∀ p ∈ encodingPrefixes, ' ' ∉ p := by decide
  intro hmem
  rcases List.mem_append.1 hmem with hmem | hmem
  · exact hall p hp hmem
  · obtain rfl := List.mem_singleton.1 hmem
    rcases hquote with hquote | ⟨hquote, -⟩ <;> cases hquote

theorem announces_of_spaced {p : List Char} {n : Nat} (hp : p ∈ encodingPrefixes)
    (hmore : Spaced more) (h : announces (cs.take n ++ more) p = true) : announces cs p = true := by
  obtain ⟨quote, hquote, hpre⟩ := announces_iff.1 h
  have htake := hmore.prefix_of_append (space_notMem_announced hp hquote) hpre
  exact announces_iff.2 ⟨quote, hquote, htake.trans (List.take_prefix n cs)⟩

theorem literalPrefix?_spaced {p : List Char} {n : Nat} (h : literalPrefix? cs = some p)
    (hn : p.length < n) (hmore : Spaced more) : literalPrefix? (cs.take n ++ more) = some p := by
  rw [literalPrefix?_eq_find?] at h ⊢
  refine find?_of_imp h ?_ fun q hq => announces_of_spaced hq hmore
  obtain ⟨quote, hquote, hpre⟩ := announces_iff.1 (List.find?_some h)
  refine announces_iff.2 ⟨quote, hquote, List.IsPrefix.trans ?_ (List.prefix_append _ more)⟩
  exact List.prefix_take_iff.2 ⟨hpre, by rwa [List.length_append]⟩

theorem literalPrefix?_spaced_none (n : Nat) (h : literalPrefix? cs = none) (hmore : Spaced more) :
    literalPrefix? (cs.take n ++ more) = none := by
  rw [literalPrefix?_eq_find?, List.find?_eq_none] at h ⊢
  exact fun q hq hannounces => h q hq (announces_of_spaced hq hmore hannounces)

theorem prefixed_spaced {p : List Char} {n : Nat} {lexeme : Lexeme} (hlt : p.length < cs.length)
    (h : prefixed p cs = (.token lexeme, n)) (more : List Char) :
    p.length < n ∧ prefixed p (cs.take n ++ more) = (.token lexeme, n) := by
  unfold prefixed at h ⊢
  split at h
  next hraw =>
    rw [if_pos hraw]
    exact rawString_spaced hlt h more
  next hraw =>
    obtain ⟨hn, hspaced⟩ := quotation_spaced hlt h more
    have hquote : (cs.take n ++ more)[p.length]? = cs[p.length]? := by
      rw [List.getElem?_append_left (by rw [List.length_take]; omega), List.getElem?_take_of_lt hn]
    rw [if_neg hraw, hquote]
    exact ⟨hn, hspaced⟩

theorem startsNumber_cons {c : Char} :
    startsNumber (c :: cs) = if c == '.' then cs.head?.any Text.isDigit else Text.isDigit c := by
  cases cs with
  | nil =>
      by_cases hc : c = '.'
      · subst hc
        decide
      · simp [startsNumber, hc]
  | cons d cs =>
      by_cases hc : c = '.'
      · subst hc
        rfl
      · simp [startsNumber, hc]

theorem startsNumber_spaced {c : Char} {rest : List Char} {n : Nat} (h : Spaced more)
    (hn : c = '.' → ∀ d ds, rest = d :: ds → Text.isDigit d = true → 0 < n) :
    startsNumber (c :: (rest.take n ++ more)) = startsNumber (c :: rest) := by
  rw [startsNumber_cons, startsNumber_cons]
  split
  next hdot => exact h.any_head?_take (by decide) (hn (beq_iff_eq.1 hdot))
  next => rfl

theorem punctuator_spaced {c : Char} {rest : List Char} {n : Nat} {lexeme : Lexeme}
    (h : punctuator c (c :: rest) = (.token lexeme, n)) (hmore : Spaced more) :
    punctuator c ((c :: rest).take n ++ more) = (.token lexeme, n) := by
  have hspace : ∀ p ∈ longPunctuators, ' ' ∉ p := by decide
  have himp : ∀ p ∈ longPunctuators, p.isPrefixOf ((c :: rest).take n ++ more) = true →
      p.isPrefixOf (c :: rest) = true := by
    intro p hp hpre
    have htake := hmore.prefix_of_append (hspace p hp) (List.isPrefixOf_iff_prefix.1 hpre)
    exact List.isPrefixOf_iff_prefix.2 (htake.trans (List.take_prefix n _))
  unfold punctuator at h
  split at h
  next p hp =>
    have hn : p.length = n := congrArg Prod.snd h
    have hpre : p <+: c :: rest := by
      simpa using List.find?_some hp
    have hfind : longPunctuators.find? (·.isPrefixOf ((c :: rest).take n ++ more)) = some p := by
      refine find?_of_imp hp ?_ himp
      rw [← hn, ← List.prefix_iff_eq_take.1 hpre]
      exact List.isPrefixOf_iff_prefix.2 (List.prefix_append p more)
    rw [← hn] at h hfind ⊢
    rw [punctuator, hfind]
    exact (tokenOf_spaced hpre.length_le more).trans h
  next hnone =>
    split at h
    next hshort =>
      have hn : 1 = n := congrArg Prod.snd h
      have hfind : longPunctuators.find? (·.isPrefixOf ((c :: rest).take n ++ more)) = none := by
        rw [List.find?_eq_none] at hnone ⊢
        exact fun q hq hpre => hnone q hq (himp q hq hpre)
      rw [← hn] at h hfind ⊢
      rw [punctuator, hfind]
      show (if _ then _ else _) = _
      rw [if_pos hshort]
      exact (tokenOf_spaced (by simp) more).trans h
    next => cases h

theorem numberOf_spaced {c : Char} {rest : List Char} {n : Nat} {lexeme : Lexeme}
    (h : tokenOf .number (c :: rest) (number (c :: rest)) = (.token lexeme, n))
    (hmore : Spaced more) :
    startsNumber ((c :: rest).take n ++ more) = startsNumber (c :: rest) ∧
      tokenOf .number ((c :: rest).take n ++ more) (number ((c :: rest).take n ++ more))
        = (.token lexeme, n) := by
  have hn : number (c :: rest) = n := congrArg Prod.snd h
  have hle : number (c :: rest) ≤ (c :: rest).length := by
    have : numberTail (startsHexadecimal (c :: rest)) c rest ≤ rest.length := numberTail_le
    rw [number, List.length_cons]
    omega
  rw [← hn] at h ⊢
  constructor
  · rw [number, Nat.add_comm, List.take_succ_cons, List.cons_append]
    refine startsNumber_spaced hmore ?_
    rintro - d ds rfl hd
    exact numberTail_pos (by simp [Text.continuesWord, Text.isAlphanumeric, hd])
  · rw [number_spaced hmore]
    exact (tokenOf_spaced hle more).trans h

theorem kind_of_directive {n : Nat} {lexeme : Lexeme} (h : directive cs = (.token lexeme, n)) :
    lexeme.kind = .directive := by
  unfold directive at h
  split at h
  · cases h
    rfl
  · cases h

/-- A token other than a preprocessor line is read again before a space. -/
theorem token_spaced {fresh fresh' : Bool} {c : Char} {rest : List Char} {n : Nat} {lexeme : Lexeme}
    (h : token fresh c (c :: rest) = (.token lexeme, n)) (hkind : lexeme.kind ≠ .directive)
    (hfresh : fresh' = true → c ≠ '#') (hmore : Spaced more) :
    token fresh' c ((c :: rest).take n ++ more) = (.token lexeme, n) := by
  have hpos : 0 < n := by
    have hspelled := spelledAs_token fresh c rest lexeme (congrArg Prod.fst h) hkind
    rw [h] at hspelled
    exact hspelled.1
  have hno : ¬ (c == '#' && fresh') = true := by
    rw [Bool.and_eq_true, beq_iff_eq]
    exact fun hhash => hfresh hhash.2 hhash.1
  unfold token at h ⊢
  rw [if_neg hno]
  split at h
  · exact absurd (kind_of_directive h) hkind
  split at h
  next p hp =>
    obtain ⟨-, quote, inside, hcs, -⟩ := of_literalPrefix? hp
    have hlt : p.length < (c :: rest).length := by
      rw [hcs, List.length_append, List.length_cons]
      omega
    obtain ⟨hn, hspaced⟩ := prefixed_spaced hlt h more
    rw [literalPrefix?_spaced hp hn hmore]
    exact hspaced
  next hnone =>
    rw [literalPrefix?_spaced_none n hnone hmore]
    dsimp only
    split at h
    next hword =>
      have hn : word (c :: rest) = n := congrArg Prod.snd h
      rw [← hn] at h ⊢
      rw [if_pos hword, word_spaced hmore]
      exact (tokenOf_spaced (List.takeWhile_prefix _).length_le more).trans h
    next hword =>
      rw [if_neg hword]
      split at h
      next hnumber =>
        obtain ⟨hstarts, hspaced⟩ := numberOf_spaced h hmore
        rw [if_pos (hstarts.trans hnumber)]
        exact hspaced
      next hnumber =>
        have hstarts : startsNumber ((c :: rest).take n ++ more) = startsNumber (c :: rest) := by
          obtain ⟨m, rfl⟩ := Nat.exists_eq_add_one_of_ne_zero (Nat.ne_of_gt hpos)
          rw [List.take_succ_cons, List.cons_append]
          refine startsNumber_spaced hmore ?_
          rintro rfl d ds rfl hd
          exact absurd hd hnumber
        rw [if_neg (hstarts ▸ hnumber)]
        split at h
        next hquote =>
          rw [if_pos hquote]
          exact (quotation_spaced (Nat.succ_pos _) h more).2
        next hquote =>
          rw [if_neg hquote]
          exact punctuator_spaced h hmore

theorem token_of_recognise {fresh : Bool} {c : Char} {n : Nat} {lexeme : Lexeme}
    (h : recognise fresh c cs = (.token lexeme, n)) :
    trivia? cs = none ∧ token fresh c cs = (.token lexeme, n) := by
  unfold recognise at h
  cases htrivia : trivia? cs with
  | some r =>
      rw [htrivia, Option.getD_some] at h
      exact absurd (congrArg Prod.fst h) (ne_token_of_trivia? htrivia lexeme)
  | none =>
      rw [htrivia, Option.getD_none] at h
      exact ⟨rfl, h⟩

/-- A token other than a preprocessor line that is read at the start of a text is read again at the
start of what is left of it, before a space or at the end.  If it starts with a hash the line must
not be fresh. -/
theorem recognise_spaced {fresh fresh' : Bool} {c : Char} {rest : List Char} {n : Nat}
    {lexeme : Lexeme} (h : recognise fresh c (c :: rest) = (.token lexeme, n))
    (hkind : lexeme.kind ≠ .directive) (hfresh : fresh' = true → c ≠ '#') (hmore : Spaced more) :
    recognise fresh' c (c :: (rest.take (n - 1) ++ more)) = (.token lexeme, n) := by
  obtain ⟨htrivia, htoken⟩ := token_of_recognise h
  have hpos : 0 < n := by
    have hspelled := spelledAs_token fresh c rest lexeme (congrArg Prod.fst htoken) hkind
    rw [htoken] at hspelled
    exact hspelled.1
  obtain ⟨m, rfl⟩ := Nat.exists_eq_add_one_of_ne_zero (Nat.ne_of_gt hpos)
  rw [recognise, Nat.add_sub_cancel, trivia?_spaced hmore m htrivia, Option.getD_none]
  exact token_spaced htoken hkind hfresh hmore

theorem not_fresh_of_hash {fresh : Bool} {rest : List Char} {n : Nat} {lexeme : Lexeme}
    (h : recognise fresh '#' ('#' :: rest) = (.token lexeme, n))
    (hkind : lexeme.kind ≠ .directive) : fresh = false := by
  cases fresh with
  | false => rfl
  | true => exact absurd (kind_of_directive h) hkind

/-- A token does not reach beyond the text, or it would read differently before a space. -/
theorem le_length_of_recognise {c : Char} {rest : List Char} {n : Nat} {lexeme : Lexeme}
    {fresh : Bool} (h : recognise fresh c (c :: rest) = (.token lexeme, n))
    (hkind : lexeme.kind ≠ .directive) : n ≤ rest.length + 1 := by
  have hread : ∀ more, Spaced more →
      lexeme.text = String.ofList ((c :: (rest.take (n - 1) ++ more)).take n) := by
    intro more hmore
    have hhash : fresh = true → c ≠ '#' := by
      rintro rfl rfl
      exact absurd (not_fresh_of_hash h hkind) (by decide)
    have hsame := recognise_spaced h hkind hhash hmore
    have hspelled := spelledAs_recognise fresh c _ lexeme (congrArg Prod.fst hsame) hkind
    rw [hsame] at hspelled
    exact hspelled.2
  have hnil := hread [] .nil
  have hspace := hread [' '] (.space [])
  have hlength := congrArg String.length (hnil.symm.trans hspace)
  simp only [String.length_ofList, List.length_take, List.length_cons, List.length_append,
    List.length_nil] at hlength
  omega

end Piece

end CxxFloor
