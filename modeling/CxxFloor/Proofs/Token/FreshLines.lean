/-
# Where directives start

A hash starts a directive where the line is fresh, and every line end that is
passed makes it so, also one inside a token.  So what decides is where the
tokens before it start and not where they end: a hash is a directive if all of
them start on earlier lines, and a punctuator if one of them starts on its line,
which then ends there too (`directives_start_lines`).

The two differ behind a raw string, or a string with a joined line end, that
starts on an earlier line and ends on that of the hash: a token stands on that
line, and a directive starts behind it (`directive_behind_string`).

What has been given up on starts no token, but it takes the rest of its line
along, so the line is fresh again before anything else is read
(`FreshAt.step`).
-/
import CxxFloor.Proofs.Token.Normalisation
import CxxFloor.Proofs.Text.Lines

namespace CxxFloor

/-! ## Tokens that start with a hash -/

def hashes : List Lexeme := [⟨.punctuator, "#"⟩, ⟨.punctuator, "##"⟩]

theorem of_mem_hashes {lexeme : Lexeme} (h : lexeme ∈ hashes) :
    lexeme.kind = .punctuator ∧ lexeme.text.toList.head? = some '#' := by
  simp only [hashes, List.mem_cons, List.not_mem_nil, or_false] at h
  rcases h with rfl | rfl <;> exact ⟨rfl, rfl⟩

namespace Piece

variable {rest : List Char} {c : Char} {n : Nat} {lexeme : Lexeme} {fresh : Bool}

theorem recognise_hash (rest : List Char) : recognise false '#' ('#' :: rest) =
    tokenOf .punctuator ('#' :: rest) (if rest.head? = some '#' then 2 else 1) := by
  cases rest with
  | nil => rfl
  | cons d rest =>
      by_cases hd : d = '#'
      · subst hd
        rfl
      · have hlong : ∀ p ∈ longPunctuators, p.head? = some '#' → p = ['#', '#'] := by decide
        have hne : ∀ p ∈ longPunctuators, p ≠ [] := by decide
        have hfind : longPunctuators.find? (·.isPrefixOf ('#' :: d :: rest)) = none := by
          refine List.find?_eq_none.2 fun p hp hprefix => ?_
          obtain ⟨e, es, rfl⟩ := List.exists_cons_of_ne_nil (hne p hp)
          obtain ⟨rfl, hes⟩ := List.cons_prefix_cons.1 (List.isPrefixOf_iff_prefix.1 hprefix)
          obtain ⟨-, rfl⟩ := List.cons_eq_cons.1 (hlong _ hp rfl)
          exact hd (List.cons_prefix_cons.1 hes).1.symm
        have hhead : (d :: rest).head? ≠ some '#' := by simpa using hd
        show punctuator '#' ('#' :: d :: rest) = _
        rw [punctuator, hfind, if_neg hhead]
        rfl

/-- A token that starts with a hash is a directive if the line is fresh, and else one of two
punctuators. -/
theorem hash_of_recognise (h : recognise fresh '#' ('#' :: rest) = (.token lexeme, n)) :
    fresh = true ∧ lexeme.kind = .directive ∨
      fresh = false ∧ lexeme ∈ hashes := by
  cases fresh with
  | true => exact .inl ⟨rfl, kind_of_directive h⟩
  | false =>
      refine .inr ⟨rfl, ?_⟩
      rw [recognise_hash] at h
      cases rest with
      | nil =>
          cases h
          exact List.mem_cons_self
      | cons d rest =>
          by_cases hd : d = '#'
          · subst hd
            cases h
            exact List.mem_cons_of_mem _ List.mem_cons_self
          · rw [if_neg (by simpa using hd)] at h
            cases h
            exact List.mem_cons_self

theorem eq_hash_of_recognise (h : recognise fresh c (c :: rest) = (.token lexeme, n))
    (hlexeme : lexeme.kind = .directive ∨ lexeme ∈ hashes) : c = '#' := by
  rcases hlexeme with hkind | hmem
  · exact Option.some.inj (directiveAs_recognise fresh c rest lexeme (congrArg Prod.fst h) hkind).1
  · obtain ⟨hkind, hhead⟩ := of_mem_hashes hmem
    have hspelled := spelledAs_recognise fresh c rest lexeme (congrArg Prod.fst h) (by simp [hkind])
    rw [h] at hspelled
    obtain ⟨hpos, htext⟩ := hspelled
    obtain ⟨m, rfl⟩ := Nat.exists_eq_add_one_of_ne_zero (Nat.ne_of_gt hpos)
    rw [htext, String.toList_ofList] at hhead
    exact Option.some.inj hhead

end Piece

/-! ## When a line is fresh -/

/-- What freshness says behind tokens: that each of them starts on an earlier line.  It need not
say that where nothing but a line end can follow. -/
structure FreshAt (us : List Token) (p : Position) (fresh : Bool) (cs : List Char) : Prop where
  line_le : ∀ u ∈ us, u.start.line ≤ p.line
  fresh_iff : (fresh = true ↔ ∀ u ∈ us, u.start.line < p.line) ∨ cs = [] ∨ cs.head? = some '\n'

namespace FreshAt

variable {us : List Token} {p : Position} {fresh : Bool} {c : Char} {rest : List Char} {n : Nat}
  {kind : PieceKind}

theorem line_le_after (h : FreshAt us p fresh (c :: rest)) (raw : List Char) :
    ∀ u ∈ us, u.start.line ≤ (p.after raw).line := by
  intro u hu
  rw [Position.after_line]
  exact Nat.le_add_right_of_le (h.line_le u hu)

theorem pass (h : FreshAt us p fresh (c :: rest)) (htrivia : kind.isTrivia = true) (n : Nat) :
    FreshAt us (p.after (c :: rest.take (n - 1)))
      (Piece.freshAfter fresh ⟨kind, c :: rest.take (n - 1)⟩) (rest.drop (n - 1)) := by
  rw [Piece.freshAfter_of_isTrivia fresh htrivia]
  refine ⟨h.line_le_after _, .inl ?_⟩
  rw [Position.after_line]
  by_cases hfeed : '\n' ∈ c :: rest.take (n - 1)
  · -- a line end is passed, and all of the tokens start before it
    have hpos := List.count_pos_iff.2 hfeed
    have hlater : ∀ u ∈ us, u.start.line < p.line + (c :: rest.take (n - 1)).count '\n' :=
      fun u hu => Nat.lt_of_le_of_lt (h.line_le u hu) (Nat.lt_add_of_pos_right hpos)
    simpa [hfeed] using hlater
  · have hc : c ≠ '\n' := fun heq => hfeed (heq ▸ List.mem_cons_self)
    have hiff := h.fresh_iff.resolve_right (by simpa using hc)
    rw [List.count_eq_zero_of_not_mem hfeed, Nat.add_zero, ← hiff]
    simp [hfeed]

theorem start (h : FreshAt us p fresh (c :: rest)) {lexeme : Lexeme} {raw after : List Char} :
    FreshAt (us ++ [⟨lexeme, p, p.offset + raw.length⟩]) (p.after raw)
      (Piece.freshAfter fresh ⟨.token lexeme, raw⟩) after := by
  have hafter : (p.after raw).line = p.line + raw.count '\n' := Position.after_line p raw
  refine ⟨fun u hu => ?_, .inl ?_⟩
  · rcases List.mem_append.1 hu with hu | hu
    · exact h.line_le_after raw u hu
    · rw [List.mem_singleton.1 hu, hafter]
      exact Nat.le_add_right _ _
  · have hfresh : Piece.freshAfter fresh ⟨.token lexeme, raw⟩ = true ↔ '\n' ∈ raw := by
      simp [Piece.freshAfter]
    rw [hfresh, hafter, ← List.count_pos_iff]
    constructor
    · intro hpos u hu
      rcases List.mem_append.1 hu with hu | hu
      · exact Nat.lt_of_le_of_lt (h.line_le u hu) (Nat.lt_add_of_pos_right hpos)
      · rw [List.mem_singleton.1 hu]
        exact Nat.lt_add_of_pos_right hpos
    · intro hlater
      have := hlater _ (List.mem_append_right _ List.mem_cons_self)
      dsimp only at this
      omega

/-- Nothing but a line end can follow what has been given up on. -/
theorem giveUp (h : FreshAt us p fresh (c :: rest)) {fault : Fault} {place : Nat}
    (hr : Piece.recognise fresh c (c :: rest) = (.faulty fault place, n)) :
    FreshAt us (p.after (c :: rest.take (n - 1)))
      (Piece.freshAfter fresh ⟨.faulty fault place, c :: rest.take (n - 1)⟩)
      (rest.drop (n - 1)) :=
  ⟨h.line_le_after _, .inr (Piece.ends_of_recognise hr rfl rfl)⟩

/-- What freshness says is kept by every piece that is read. -/
theorem step (h : FreshAt us p fresh (c :: rest))
    (hr : Piece.recognise fresh c (c :: rest) = (kind, n)) :
    FreshAt (us ++ (Piece.asToken? (p, ⟨kind, c :: rest.take (n - 1)⟩)).toList)
      (p.after (c :: rest.take (n - 1)))
      (Piece.freshAfter fresh ⟨kind, c :: rest.take (n - 1)⟩) (rest.drop (n - 1)) := by
  cases htrivia : kind.isTrivia with
  | true =>
      have hnone : Piece.asToken? (p, ⟨kind, c :: rest.take (n - 1)⟩) = none := by
        cases kind <;> first | rfl | cases htrivia
      rw [hnone, Option.toList_none, List.append_nil]
      exact h.pass htrivia n
  | false =>
      cases kind with
      | token lexeme => exact h.start
      | faulty fault place =>
          have hgiven := h.giveUp hr
          rwa [← List.append_nil us] at hgiven
      | _ => cases htrivia

end FreshAt

/-- In the text `cs` the token `t` is read behind the tokens `us`, where freshness says where they
start. -/
def ReadFresh (us : List Token) (p : Position) (cs : List Char) (t : Token) : Prop :=
  ∃ before fresh c rest n, cs = before ++ c :: rest ∧ t.start = p.after before ∧
    Piece.recognise fresh c (c :: rest) = (.token t.toLexeme, n) ∧
      FreshAt us t.start fresh (c :: rest)

theorem ReadFresh.behind {us : List Token} {p : Position} {raw cs : List Char} {t : Token}
    (h : ReadFresh us (p.after raw) cs t) : ReadFresh us p (raw ++ cs) t := by
  obtain ⟨before, fresh, c, rest, n, rfl, hstart, hread, hat⟩ := h
  refine ⟨raw ++ before, fresh, c, rest, n, (List.append_assoc _ _ _).symm, ?_, hread, hat⟩
  rw [hstart, Position.after_append]

/-- Every token is read where freshness says where the tokens before it start. -/
theorem readFresh_of_tokens (fresh : Bool) (cs : List Char) : ∀ (us : List Token) (p : Position),
    FreshAt us p fresh cs → ∀ (earlier : List Token) (t : Token) (behind : List Token),
      (placed p (pieces fresh cs)).filterMap Piece.asToken? = earlier ++ t :: behind →
      ReadFresh (us ++ earlier) p cs t := by
  fun_induction pieces fresh cs with
  | case1 => exact fun us p _ earlier t behind htokens => absurd htokens.symm (by simp [placed])
  | case2 fresh c rest kind n hr piece ih =>
      intro us p h earlier t behind htokens
      have hnext := h.step hr
      have hsplit : c :: rest = piece.raw ++ rest.drop (n - 1) := by simp [piece]
      rw [placed] at htokens
      cases htoken : Piece.asToken? (p, piece) with
      | none =>
          rw [List.filterMap_cons_none htoken] at htokens
          rw [htoken, Option.toList_none, List.append_nil] at hnext
          rw [hsplit]
          exact (ih us (p.after piece.raw) hnext earlier t behind htokens).behind
      | some u =>
          rw [List.filterMap_cons_some htoken] at htokens
          rw [htoken, Option.toList_some] at hnext
          cases earlier with
          | nil =>
              obtain ⟨rfl, -⟩ := List.cons_eq_cons.1 htokens
              cases kind with
              | token lexeme =>
                  cases htoken
                  exact ⟨[], fresh, c, rest, n, rfl, rfl, hr, (List.append_nil us).symm ▸ h⟩
              | _ => cases htoken
          | cons v earlier =>
              obtain ⟨rfl, hlater⟩ := List.cons_eq_cons.1 htokens
              have hread := ih (us ++ [u]) (p.after piece.raw) hnext earlier t behind hlater
              rw [List.append_assoc, List.singleton_append] at hread
              rw [hsplit]
              exact hread.behind

/-! ## Lines of tokens -/

theorem Text.lineAt_mono (cs : List Char) {m n : Nat} (h : m ≤ n) : lineAt cs m ≤ lineAt cs n :=
  Nat.add_le_add_left ((List.take_sublist_take_left h).count_le _) 1

theorem line_of_mem_tokens {text : List Char} {t : Token} (h : t ∈ tokens text) :
    t.start.line = Text.lineAt text t.start.offset := by
  obtain ⟨before, raw, behind, htext, hstart, -, -⟩ := split_of_mem_tokens h
  rw [List.append_assoc] at htext
  rw [hstart, htext, Text.after_prefix before (raw ++ behind)]
  rfl

theorem lineAt_last {text : List Char} {u t : Token} (hu : u ∈ tokens text) (ht : t ∈ tokens text)
    (hle : u.stop ≤ t.start.offset) (hline : u.start.line = t.start.line) :
    Text.lineAt text (u.stop - 1) = t.start.line := by
  have hlt := start_lt_stop hu
  refine Nat.le_antisymm ?_ ?_
  · rw [line_of_mem_tokens ht]
    exact Text.lineAt_mono text (by omega)
  · rw [← hline, line_of_mem_tokens hu]
    exact Text.lineAt_mono text (by omega)

/-- A hash that starts a token is a directive if all tokens before it start on earlier lines.  If
one of them starts on its line, and so ends there, it is a punctuator.  No other token is the one or
the other. -/
theorem directives_start_lines {text : List Char} {earlier behind : List Token} {t : Token}
    (h : tokens text = earlier ++ t :: behind) :
    (t.kind = .directive ↔ text[t.start.offset]? = some '#' ∧
      ∀ u ∈ earlier, u.start.line < t.start.line) ∧
    (t.toLexeme ∈ hashes ↔
      text[t.start.offset]? = some '#' ∧ ∃ u ∈ earlier, u.start.line = t.start.line ∧
        Text.lineAt text (u.stop - 1) = t.start.line) := by
  have ht : t ∈ tokens text := h ▸ List.mem_append_right earlier List.mem_cons_self
  have hends : ∀ u ∈ earlier, u.start.line = t.start.line →
      Text.lineAt text (u.stop - 1) = t.start.line := fun u hu =>
    have hsorted := List.pairwise_append.1 (h ▸ tokens_sorted text)
    lineAt_last (h ▸ List.mem_append_left _ hu) ht (hsorted.2.2 u hu t List.mem_cons_self)
  obtain ⟨before, fresh, c, rest, n, htext, hstart, hread, hat⟩ :=
    readFresh_of_tokens true text [] .start ⟨nofun, .inl (by simp)⟩ earlier t behind h
  rw [List.nil_append] at hat
  have hfirst : text[t.start.offset]? = some c := by
    rw [hstart, Position.after_offset, htext]
    simp [Position.start]
  rw [hfirst, Option.some.injEq]
  by_cases hc : c = '#'
  · subst hc
    have hfresh := hat.fresh_iff.resolve_right (by simp)
    rcases Piece.hash_of_recognise hread with ⟨rfl, hkind⟩ | ⟨rfl, hhash⟩
    · -- all tokens before it start on earlier lines
      have hlater := hfresh.1 rfl
      refine ⟨by simpa [hkind] using hlater, ⟨fun hhash => ?_, ?_⟩⟩
      · have hpunctuator := (of_mem_hashes hhash).1
        rw [hkind] at hpunctuator
        cases hpunctuator
      · rintro ⟨-, u, hu, heq, -⟩
        exact absurd (hlater u hu) (heq ▸ Nat.lt_irrefl _)
    · -- one of them starts on its line
      obtain ⟨u, hu, hline⟩ : ∃ u ∈ earlier, ¬ u.start.line < t.start.line := by
        simpa using hfresh
      have heq := Nat.le_antisymm (hat.line_le u hu) (Nat.not_lt.1 hline)
      refine ⟨⟨fun hkind => ?_, fun hall => absurd (hall.2 u hu) hline⟩,
        fun _ => ⟨rfl, u, hu, heq, hends u hu heq⟩, fun _ => hhash⟩
      have hpunctuator := (of_mem_hashes hhash).1
      rw [hkind] at hpunctuator
      cases hpunctuator
  · exact ⟨⟨fun hkind => absurd (Piece.eq_hash_of_recognise hread (.inl hkind)) hc,
        fun hall => absurd hall.1 hc⟩,
      fun hhash => absurd (Piece.eq_hash_of_recognise hread (.inr hhash)) hc,
      fun hsame => absurd hsame.1 hc⟩

/-- A hash within a line and one at the start of the next. -/
theorem directives_start_lines_next :
    ∃ a hash b line : Token, tokens "a # b\n #if".toList = [a, hash, b] ++ [line] ∧
      hash.toLexeme = ⟨.punctuator, "#"⟩ ∧ line.toLexeme = ⟨.directive, "#if"⟩ ∧
      ∀ u ∈ [a, hash, b], u.start.line < line.start.line := by
  have h : tokens "a # b\n #if".toList =
      [⟨⟨.word, "a"⟩, ⟨0, 1, 1⟩, 1⟩, ⟨⟨.punctuator, "#"⟩, ⟨2, 1, 3⟩, 3⟩,
        ⟨⟨.word, "b"⟩, ⟨4, 1, 5⟩, 5⟩] ++ [⟨⟨.directive, "#if"⟩, ⟨7, 2, 2⟩, 10⟩] := by
    decide +kernel
  exact ⟨_, _, _, _, h, rfl, rfl, ((directives_start_lines h).1.1 rfl).2⟩

/-- Behind a raw string, and behind a string with a joined line end, a directive starts on a line
where a token ends. -/
theorem directive_behind_string :
    (tokens "R\"(\n)\" # x".toList =
        [⟨⟨.string, "R\"(\n)\""⟩, ⟨0, 1, 1⟩, 6⟩, ⟨⟨.directive, "# x"⟩, ⟨7, 2, 4⟩, 10⟩] ∧
      Text.lineAt "R\"(\n)\" # x".toList (6 - 1) = 2) ∧
    tokens "\"a\\\nb\" # x".toList =
        [⟨⟨.string, "\"a\\\nb\""⟩, ⟨0, 1, 1⟩, 6⟩, ⟨⟨.directive, "# x"⟩, ⟨7, 2, 4⟩, 10⟩] ∧
      Text.lineAt "\"a\\\nb\" # x".toList (6 - 1) = 2 := by
  decide +kernel

end CxxFloor
