/-
# Tokens that are abandoned

Why a stretch of a text is given up on, said of the text alone: from the first
character on it starts a comment, a directive or a literal that has no end, or
no token at all (`Abandoned`).  The place is that of the fault: the quote of a
literal, the comment in a directive, or the first character.

Whatever the recognisers give up on is abandoned for the reason that they
record, and they go on at the end of a line (`AbandonedAs`).
-/
import CxxFloor.Proofs.Token.Trivia

namespace CxxFloor

/-- What may stand between two quotes: a backslash takes the next character along. -/
inductive Quoted (quote : Char) : List Char → Prop
  | nil : Quoted quote []
  | char {c : Char} {cs : List Char} (hquote : c ≠ quote) (hback : c ≠ '\\') (hfeed : c ≠ '\n')
      (h : Quoted quote cs) : Quoted quote (c :: cs)
  | escape {c : Char} {cs : List Char} (h : Quoted quote cs) : Quoted quote ('\\' :: c :: cs)

def Closes (quote : Char) (inside : List Char) : Prop :=
  ∃ body after, inside = body ++ quote :: after ∧ Quoted quote body

/-- A preprocessor line up to the text `after`: it has no line end but those joined or in comments,
and no comment that is still open. -/
inductive DirectiveText (after : List Char) : List Char → Prop
  | nil : DirectiveText after []
  | splice {cs : List Char} (h : DirectiveText after cs) : DirectiveText after ('\\' :: '\n' :: cs)
  | comment {body cs : List Char} (hbody : ¬ ['*', '/'] <:+: body) (h : DirectiveText after cs) :
      DirectiveText after ('/' :: '*' :: (body ++ '*' :: '/' :: cs))
  | char {c : Char} {cs : List Char} (hfeed : c ≠ '\n')
      (hline : c = '/' → (cs ++ after).head? ≠ some '/')
      (hblock : c = '/' → (cs ++ after).head? ≠ some '*') (h : DirectiveText after cs) :
      DirectiveText after (c :: cs)

/-- What the text starts with is given up on: why, and how many characters before the fault. -/
inductive Abandoned : Fault → Nat → List Char → Prop
  /-- A comment that is never closed. -/
  | comment {inside : List Char} (hopen : ¬ ['*', '/'] <:+: inside) :
      Abandoned .unterminatedComment 0 ('/' :: '*' :: inside)
  /-- A directive with a comment that is never closed. -/
  | directive {line inside : List Char} (hhash : line.head? = some '#')
      (hline : DirectiveText ('/' :: '*' :: inside) line) (hopen : ¬ ['*', '/'] <:+: inside) :
      Abandoned .unterminatedComment line.length (line ++ '/' :: '*' :: inside)
  /-- A string that is not closed on its line. -/
  | string {p inside : List Char} (hp : p = [] ∨ p ∈ Piece.encodingPrefixes ∧ 'R' ∉ p)
      (hopen : ¬ Closes '"' inside) :
      Abandoned .unterminatedString p.length (p ++ '"' :: inside)
  /-- A character literal that is not closed on its line. -/
  | character {p inside : List Char} (hp : p = [] ∨ p ∈ Piece.encodingPrefixes ∧ 'R' ∉ p)
      (hopen : ¬ Closes Text.singleQuote inside) :
      Abandoned .unterminatedCharacter p.length (p ++ Text.singleQuote :: inside)
  /-- A raw string without an opening parenthesis on its line, or too far from it. -/
  | delimiter {p inside : List Char} (hp : p ∈ Piece.encodingPrefixes ∧ 'R' ∈ p)
      (hopen : ∀ d body, inside = d ++ '(' :: body → '\n' ∈ d ∨ Extent.maxDelimiter < d.length) :
      Abandoned .malformedDelimiter p.length (p ++ '"' :: inside)
  /-- A raw string that is never closed. -/
  | rawString {p d body : List Char} (hp : p ∈ Piece.encodingPrefixes ∧ 'R' ∈ p)
      (hd : '(' ∉ d ∧ '\n' ∉ d) (hopen : ¬ Extent.rawTerminator d <:+: body) :
      Abandoned .unterminatedRawString p.length (p ++ '"' :: (d ++ '(' :: body))
  /-- A character that starts neither a token nor a comment. -/
  | unexpected {c : Char} {rest : List Char} (hlayout : Text.isLayout c = false)
      (hsplice : c = '\\' → rest.head? ≠ some '\n') (hword : Text.startsWord c = false)
      (hdigit : Text.isDigit c = false) (hquote : c ≠ '"' ∧ c ≠ Text.singleQuote)
      (hpunctuator : c ∉ Piece.shortPunctuators) : Abandoned (.unexpected c) 0 (c :: rest)

theorem Abandoned.lt_length {fault : Fault} {place : Nat} {cs : List Char}
    (h : Abandoned fault place cs) : place < cs.length := by
  cases h <;> simp

theorem newline_ne_head?_of_prefix {p rest : List Char} {quote : Char} (hquote : quote ≠ '\n')
    (hp : p = [] ∨ p ∈ Piece.encodingPrefixes) : (p ++ quote :: rest).head? ≠ some '\n' := by
  rcases hp with rfl | hp
  · exact fun h => hquote (Option.some.inj h)
  · have hnew := Piece.newline_notMem_encodingPrefixes hp
    cases p with
    | nil => exact fun h => hquote (Option.some.inj h)
    | cons c p =>
        intro h
        obtain rfl : c = '\n' := Option.some.inj h
        exact hnew List.mem_cons_self

theorem Abandoned.head?_ne {fault : Fault} {place : Nat} {cs : List Char}
    (h : Abandoned fault place cs) : cs.head? ≠ some '\n' := by
  cases h with
  | comment => exact nofun
  | @directive line inside hhash =>
      cases line with
      | nil => cases hhash
      | cons c line =>
          obtain rfl : c = '#' := Option.some.inj hhash
          exact nofun
  | string hp => exact newline_ne_head?_of_prefix (by decide) (hp.imp id And.left)
  | character hp => exact newline_ne_head?_of_prefix (by decide) (hp.imp id And.left)
  | delimiter hp => exact newline_ne_head?_of_prefix (by decide) (.inr hp.1)
  | rawString hp => exact newline_ne_head?_of_prefix (by decide) (.inr hp.1)
  | unexpected hlayout =>
      intro hhead
      obtain rfl := Option.some.inj hhead
      cases hlayout

/-! ## Extents -/

namespace Extent

theorem closed_of_quoted {quote : Char} (hback : quote ≠ '\\') (hfeed : quote ≠ '\n')
    {body : List Char} (h : Quoted quote body) (after : List Char) :
    ∃ n, quotation quote (body ++ quote :: after) = .closed n := by
  induction h with
  | nil => exact ⟨1, by rw [List.nil_append, quotation_cons hfeed hback, if_pos rfl]⟩
  | char hc hcback hcfeed h ih =>
      obtain ⟨n, hn⟩ := ih
      exact ⟨1 + n, by rw [List.cons_append, quotation_cons hcfeed hcback, if_neg hc, hn]; rfl⟩
  | escape h ih =>
      obtain ⟨n, hn⟩ := ih
      exact ⟨2 + n, by rw [List.cons_append, List.cons_append, quotation, hn]; rfl⟩

theorem not_closes_of_unclosed {quote : Char} (hback : quote ≠ '\\') (hfeed : quote ≠ '\n')
    {inside : List Char} {n : Nat} (h : quotation quote inside = .unclosed n) :
    ¬ Closes quote inside := by
  rintro ⟨body, after, rfl, hbody⟩
  obtain ⟨m, hm⟩ := closed_of_quoted hback hfeed hbody after
  rw [hm] at h
  cases h

theorem not_infix_of_firstOccurrence? {pattern : List Char} {cs : List Char}
    (h : firstOccurrence? pattern cs = none) : ¬ pattern <:+: cs := by
  induction cs with
  | nil =>
      unfold firstOccurrence? at h
      split at h
      · cases h
      next hne =>
        intro hinfix
        exact hne (List.isEmpty_iff.2 (List.infix_nil.1 hinfix))
  | cons c cs ih =>
      unfold firstOccurrence? at h
      split at h
      · cases h
      next hprefix =>
        intro hinfix
        rcases List.infix_cons_iff.1 hinfix with hpre | hinfix
        · exact hprefix (List.isPrefixOf_iff_prefix.2 hpre)
        · exact ih (Option.map_eq_none_iff.1 h) hinfix

theorem notMem_rawDelimiter (inside : List Char) :
    '(' ∉ rawDelimiter inside ∧ '\n' ∉ rawDelimiter inside := by
  have hall : ∀ c ∈ rawDelimiter inside, c ≠ '(' ∧ c ≠ '\n' := by
    intro c hc
    have := List.all_eq_true.1 List.all_takeWhile c (List.mem_of_mem_take hc)
    simpa using this
  exact ⟨fun h => (hall _ h).1 rfl, fun h => (hall _ h).2 rfl⟩

theorem drop_takeWhile_delimiter {d : List Char} (hfeed : '\n' ∉ d) (body : List Char) :
    ∃ n body', ((d ++ '(' :: body).takeWhile fun c => c ≠ '(' && c ≠ '\n').length = n ∧
      n ≤ d.length ∧ (d ++ '(' :: body).drop n = '(' :: body' := by
  induction d with
  | nil => exact ⟨0, body, rfl, Nat.le_refl _, rfl⟩
  | cons c d ih =>
      obtain ⟨hc, hd⟩ := not_or.1 (mt List.mem_cons.2 hfeed)
      rw [List.cons_append, List.takeWhile_cons]
      by_cases hopen : c = '('
      · subst hopen
        exact ⟨0, d ++ '(' :: body, rfl, Nat.zero_le _, rfl⟩
      · obtain ⟨n, body', hn, hle, hdrop⟩ := ih hd
        rw [if_pos (by simp [hopen, Ne.symm hc]), List.length_cons, hn]
        exact ⟨n + 1, body', rfl, Nat.succ_le_succ hle, hdrop⟩

theorem drop_rawDelimiter {d : List Char} (hfeed : '\n' ∉ d) (hlength : d.length ≤ maxDelimiter)
    (body : List Char) : ∃ body',
      (d ++ '(' :: body).drop (rawDelimiter (d ++ '(' :: body)).length = '(' :: body' := by
  obtain ⟨n, body', hn, hle, hdrop⟩ := drop_takeWhile_delimiter hfeed body
  refine ⟨body', ?_⟩
  unfold rawDelimiter
  rw [List.length_take, hn, Nat.min_eq_right (Nat.le_trans hle hlength)]
  exact hdrop

theorem unclosed_of_shift {e : Extent} {k n : Nat} (h : e.shift k = unclosed n) :
    ∃ m, e = unclosed m ∧ n = k + m := by
  cases e with
  | closed m => cases h
  | unclosed m =>
      cases h
      exact ⟨m, rfl, rfl⟩

end Extent

/-- Where a preprocessor line is unclosed a comment starts that is never closed. -/
theorem DirectiveLine.of_unclosed {cs : List Char} {place : Nat}
    (h : extent cs = .unclosed place) : ∃ line inside, cs = line ++ '/' :: '*' :: inside ∧
      place = line.length ∧ DirectiveText ('/' :: '*' :: inside) line ∧
      ¬ ['*', '/'] <:+: inside := by
  fun_induction extent cs generalizing place with
  | case1 => cases h
  | case2 => cases h
  | case3 rest ih =>
      obtain ⟨m, hm, rfl⟩ := Extent.unclosed_of_shift h
      obtain ⟨line, inside, rfl, rfl, hline, hopen⟩ := ih hm
      refine ⟨'\\' :: '\n' :: line, inside, rfl, ?_, .splice hline, hopen⟩
      rw [List.length_cons, List.length_cons]
      omega
  | case4 => cases h
  | case5 rest n hn ih =>
      obtain ⟨m, hm, rfl⟩ := Extent.unclosed_of_shift h
      obtain ⟨body, after, rfl, rfl, hbody⟩ := Extent.of_blockComment? hn
      have hdrop : (body ++ '*' :: '/' :: after).drop (body.length + 2) = after := by
        rw [List.drop_length_add_append]
        rfl
      rw [hdrop] at hm ih
      obtain ⟨line, inside, rfl, rfl, hline, hopen⟩ := ih hm
      refine ⟨'/' :: '*' :: (body ++ '*' :: '/' :: line), inside, by simp, ?_,
        .comment hbody hline, hopen⟩
      simp only [List.length_cons, List.length_append]
      omega
  | case6 rest hn =>
      cases h
      exact ⟨[], rest, rfl, rfl, .nil, Extent.not_infix_of_blockComment? hn⟩
  | case7 c rest hfeed hsplice hline hblock ih =>
      obtain ⟨m, hm, rfl⟩ := Extent.unclosed_of_shift h
      obtain ⟨line, inside, rfl, rfl, htext, hopen⟩ := ih hm
      refine ⟨c :: line, inside, rfl, by rw [List.length_cons]; omega,
        .char hfeed (fun hc hhead => ?_) (fun hc hhead => ?_) htext, hopen⟩
      · obtain ⟨ds, hds⟩ := List.head?_eq_some_iff.1 hhead
        exact hline ds hc hds
      · obtain ⟨ds, hds⟩ := List.head?_eq_some_iff.1 hhead
        exact hblock ds hc hds

/-! ## Recognisers -/

namespace Piece

/-- If a recogniser gives up on the text it is abandoned, and reading goes on at the end of the
line behind the fault. -/
def AbandonedAs (cs : List Char) (r : PieceKind × Nat) : Prop :=
  ∀ fault place, r.1 = .faulty fault place →
    Abandoned fault place cs ∧ ∃ read, place < read ∧ r = faultyOf fault place read cs

theorem abandonedAs_of_intact {cs : List Char} {r : PieceKind × Nat} (h : Intact r) :
    AbandonedAs cs r :=
  fun fault place hr => absurd hr (h fault place)

theorem abandonedAs_of_isTrivia {cs : List Char} {kind : PieceKind} {n : Nat}
    (h : kind.isTrivia = true) : AbandonedAs cs (kind, n) := by
  rintro fault place rfl
  cases h

theorem abandonedAs_tokenOf {kind : TokenKind} {cs ds : List Char} {n : Nat} :
    AbandonedAs cs (tokenOf kind ds n) := abandonedAs_of_intact nofun

theorem abandonedAs_faultyOf {fault : Fault} {place read : Nat} {cs : List Char}
    (h : Abandoned fault place cs) (hread : place < read) :
    AbandonedAs cs (faultyOf fault place read cs) := by
  rintro fault' place' heq
  cases heq
  exact ⟨h, read, hread, rfl⟩

theorem abandonedAs_directive (rest : List Char) :
    AbandonedAs ('#' :: rest) (directive ('#' :: rest)) := by
  unfold directive
  split
  · exact abandonedAs_of_intact nofun
  next place hplace =>
    obtain ⟨line, inside, hcs, rfl, hline, hopen⟩ := DirectiveLine.of_unclosed hplace
    have hhash : line.head? = some '#' := by
      cases line with
      | nil => cases hcs
      | cons c line =>
          obtain ⟨rfl, -⟩ := List.cons_eq_cons.1 hcs
          rfl
    rw [hcs]
    have h := Abandoned.directive hhash hline hopen
    exact abandonedAs_faultyOf h h.lt_length

theorem abandonedAs_quotation {p inside : List Char} {quote : Char}
    (hp : p = [] ∨ p ∈ encodingPrefixes ∧ 'R' ∉ p) (hquote : quote = '"' ∨ quote = Text.singleQuote) :
    AbandonedAs (p ++ quote :: inside) (quotation p.length quote (p ++ quote :: inside)) := by
  have hinside : (p ++ quote :: inside).drop (p.length + 1) = inside := by
    rw [List.drop_length_add_append]
    rfl
  unfold quotation
  rw [hinside]
  split
  · exact abandonedAs_tokenOf
  next n hn =>
    rcases hquote with rfl | rfl
    · have hopen := Extent.not_closes_of_unclosed (by decide) (by decide) hn
      exact abandonedAs_faultyOf (.string hp hopen) (by omega)
    · have hopen := Extent.not_closes_of_unclosed (by decide) (by decide) hn
      exact abandonedAs_faultyOf (.character hp hopen) (by omega)

theorem abandonedAs_rawString {p : List Char} (hp : p ∈ encodingPrefixes ∧ 'R' ∈ p)
    (inside : List Char) :
    AbandonedAs (p ++ '"' :: inside) (rawString p.length (p ++ '"' :: inside)) := by
  have hinside : (p ++ '"' :: inside).drop (p.length + 1) = inside := by
    rw [List.drop_length_add_append]
    rfl
  unfold rawString
  rw [hinside]
  dsimp only
  split
  next body hbody =>
    split
    · exact abandonedAs_tokenOf
    next hnone =>
      have hprefix : Extent.rawDelimiter inside <+: inside :=
        (List.take_prefix _ _).trans (List.takeWhile_prefix _)
      have hsplit := List.prefix_iff_eq_append.1 hprefix
      rw [hbody] at hsplit
      have h := Abandoned.rawString hp (Extent.notMem_rawDelimiter inside)
        (Extent.not_infix_of_firstOccurrence? hnone)
      rw [hsplit] at h
      exact abandonedAs_faultyOf h (by omega)
  next hnone =>
    refine abandonedAs_faultyOf (.delimiter hp fun d body hd => ?_) (by omega)
    -- a parenthesis near enough would have been found
    refine Classical.byContradiction fun hnear => ?_
    obtain ⟨hfeed, hlength⟩ := not_or.1 hnear
    obtain ⟨body', hopen⟩ := Extent.drop_rawDelimiter hfeed (Nat.not_lt.1 hlength) body
    rw [← hd] at hopen
    exact hnone body' hopen

/-- A prefix stands before a quote, and before a single one only if it announces no raw string. -/
theorem of_literalPrefix? {cs p : List Char} (h : literalPrefix? cs = some p) :
    p ∈ encodingPrefixes ∧ ∃ quote inside, cs = p ++ quote :: inside ∧
      (quote = '"' ∨ quote = Text.singleQuote ∧ 'R' ∉ p) := by
  have hp := List.find?_some h
  rw [Bool.and_eq_true, List.isPrefixOf_iff_prefix] at hp
  obtain ⟨⟨rest, rfl⟩, hquote⟩ := hp
  refine ⟨List.mem_of_find?_eq_some h, ?_⟩
  rw [List.getElem?_append_right (Nat.le_refl _), Nat.sub_self] at hquote
  cases rest with
  | nil => cases hquote
  | cons quote inside =>
      refine ⟨quote, inside, rfl, ?_⟩
      rw [List.getElem?_cons_zero] at hquote
      split at hquote
      next heq => exact .inl (Option.some.inj heq)
      next c hc heq =>
        obtain rfl := Option.some.inj heq
        rw [Bool.and_eq_true, beq_iff_eq, Bool.not_eq_true', List.contains_eq_mem,
          decide_eq_false_iff_not] at hquote
        exact .inr hquote
      next heq => cases heq

theorem abandonedAs_prefixed {cs p : List Char} (h : literalPrefix? cs = some p) :
    AbandonedAs cs (prefixed p cs) := by
  obtain ⟨hp, quote, inside, rfl, hquote⟩ := of_literalPrefix? h
  have hat : (p ++ quote :: inside)[p.length]? = some quote := by simp
  unfold prefixed
  split
  next hraw =>
    have hraw : 'R' ∈ p := by simpa using hraw
    obtain rfl : quote = '"' := hquote.resolve_right fun hsingle => hsingle.2 hraw
    exact abandonedAs_rawString ⟨hp, hraw⟩ inside
  next hraw =>
    have hraw : 'R' ∉ p := by simpa using hraw
    have hchosen : (if (p ++ quote :: inside)[p.length]? == some '"' then '"' else Text.singleQuote)
        = quote := by
      rw [hat]
      rcases hquote with rfl | ⟨rfl, -⟩ <;> rfl
    rw [hchosen]
    exact abandonedAs_quotation (.inr ⟨hp, hraw⟩) (hquote.imp id And.left)

theorem abandonedAs_punctuator {c : Char} {rest : List Char} (hlayout : Text.isLayout c = false)
    (hsplice : c = '\\' → rest.head? ≠ some '\n') (hword : Text.startsWord c = false)
    (hnumber : startsNumber (c :: rest) = false) (hquote : c ≠ '"' ∧ c ≠ Text.singleQuote) :
    AbandonedAs (c :: rest) (punctuator c (c :: rest)) := by
  unfold punctuator
  split
  · exact abandonedAs_tokenOf
  · split
    · exact abandonedAs_tokenOf
    next hshort =>
      have hpunctuator : c ∉ shortPunctuators := by simpa using hshort
      have hdigit : Text.isDigit c = false := by
        have hdot : c ≠ '.' := by
          rintro rfl
          exact hpunctuator (by decide)
        simpa [startsNumber, hdot] using hnumber
      exact abandonedAs_faultyOf (.unexpected hlayout hsplice hword hdigit hquote hpunctuator)
        Nat.one_pos

theorem abandonedAs_token {fresh : Bool} {c : Char} {rest : List Char}
    (hlayout : Text.isLayout c = false) (hsplice : c = '\\' → rest.head? ≠ some '\n') :
    AbandonedAs (c :: rest) (token fresh c (c :: rest)) := by
  unfold token
  split
  next hhash =>
    obtain rfl : c = '#' := by simpa using (Bool.and_eq_true_iff.1 hhash).1
    exact abandonedAs_directive rest
  split
  next p hp => exact abandonedAs_prefixed hp
  split
  · exact abandonedAs_tokenOf
  next hword =>
    split
    · exact abandonedAs_tokenOf
    next hnumber =>
      split
      next hquote =>
        have hquote : c = '"' ∨ c = Text.singleQuote := by simpa using hquote
        exact abandonedAs_quotation (p := []) (.inl rfl) hquote
      next hquote =>
        have hquote : c ≠ '"' ∧ c ≠ Text.singleQuote := by simpa using hquote
        exact abandonedAs_punctuator hlayout hsplice (by simpa using hword) (by simpa using hnumber)
          hquote

theorem abandonedAs_trivia? {cs : List Char} {r : PieceKind × Nat} (h : trivia? cs = some r) :
    AbandonedAs cs r := by
  unfold trivia? at h
  split at h
  · cases h
    exact abandonedAs_of_isTrivia rfl
  · cases h
    exact abandonedAs_of_isTrivia rfl
  next rest =>
    split at h
    · cases h
      exact abandonedAs_of_isTrivia rfl
    next hnone =>
      cases h
      exact abandonedAs_faultyOf (.comment (Extent.not_infix_of_blockComment? hnone))
        (Nat.succ_pos _)
  · split at h
    · cases h
      exact abandonedAs_of_isTrivia rfl
    · cases h
  · cases h

theorem of_trivia?_eq_none {c : Char} {rest : List Char} (h : trivia? (c :: rest) = none) :
    Text.isLayout c = false ∧ (c = '\\' → rest.head? ≠ some '\n') := by
  constructor
  · unfold trivia? at h
    split at h
    next heq => cases h
    next heq => cases h
    next heq =>
      obtain ⟨rfl, -⟩ := List.cons_eq_cons.1 heq
      rfl
    next heq =>
      obtain ⟨rfl, rfl⟩ := List.cons_eq_cons.1 heq
      split at h
      · cases h
      next hc => simpa using hc
    next heq => cases heq
  · rintro rfl hhead
    obtain ⟨rest, rfl⟩ := List.head?_eq_some_iff.1 hhead
    cases h

theorem abandonedAs_recognise (fresh : Bool) (c : Char) (rest : List Char) :
    AbandonedAs (c :: rest) (recognise fresh c (c :: rest)) := by
  unfold recognise
  cases h : trivia? (c :: rest) with
  | none =>
      obtain ⟨hlayout, hsplice⟩ := of_trivia?_eq_none h
      exact abandonedAs_token hlayout hsplice
  | some r => exact abandonedAs_trivia? h

end Piece

end CxxFloor
