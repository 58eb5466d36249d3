/-
# Tokens with single spaces between them

The tokens of a text, preprocessor lines left out, can be written down with
single spaces between them, and are read again from that (`tokens_joined`).
Layout, comments, what was given up on and the preprocessor lines are gone
then, and nothing else.

That each token is read again before a space is one half of it
(`Piece.recognise_spaced`).  The other is that a hash that was no directive does
not become one.  It stood on a line that was not fresh, so behind a token without
a line end in it, and that token stands right before it still: whatever ends
without being such a token, a preprocessor line or what was given up on, goes on
to the end of its line (`respells_of_pieces`).
-/
import CxxFloor.Proofs.Token.Concatenation
import CxxFloor.Proofs.Token.Separated
import CxxFloor.Proofs.Token.Stretches

namespace CxxFloor

def spoken (text : List Char) : List Lexeme :=
  ((tokens text).filter (·.kind ≠ .directive)).map (·.toLexeme)

namespace Piece

/-- What a piece says that is a token. -/
def lexeme? (p : Piece) : Option Lexeme :=
  match p.kind with
  | .token lexeme => some lexeme
  | _ => none

def spoken? (p : Piece) : Option Lexeme := p.lexeme?.filter (·.kind ≠ .directive)

theorem spoken?_eq_some {p : Piece} {lexeme : Lexeme} :
    p.spoken? = some lexeme ↔ p.kind = .token lexeme ∧ lexeme.kind ≠ .directive := by
  unfold spoken? lexeme?
  rw [Option.filter_eq_some_iff, decide_eq_true_iff]
  refine and_congr_left fun _ => ?_
  split
  next lexeme' hkind => rw [hkind, PieceKind.token.injEq, Option.some.injEq]
  next hne => exact ⟨nofun, fun hkind => absurd hkind (hne lexeme)⟩

end Piece

theorem map_toLexeme_tokens (text : List Char) :
    (tokens text).map (·.toLexeme) = (pieces true text).filterMap Piece.lexeme? := by
  rw [← map_snd_placed .start (pieces true text), List.filterMap_map, tokens, placedPieces,
    List.map_filterMap]
  refine List.filterMap_congr fun e _ => ?_
  obtain ⟨p, kind, raw⟩ := e
  cases kind <;> rfl

theorem spoken_eq_filterMap (text : List Char) :
    spoken text = (pieces true text).filterMap Piece.spoken? := by
  have hfilter : spoken text
      = ((tokens text).map (·.toLexeme)).filter (·.kind ≠ .directive) := by
    rw [List.filter_map]
    rfl
  rw [hfilter, map_toLexeme_tokens, List.filter_filterMap]
  rfl

/-! ## Texts of single tokens -/

/-- Each of the lexemes is read where it stands before a space or at the end, the line being
`fresh` before the first of them, and behind each of them if it has a line end in it. -/
inductive Respells : Bool → List Lexeme → Prop
  | nil {fresh : Bool} : Respells fresh []
  | cons {fresh : Bool} {lexeme : Lexeme} {c : Char} {cs : List Char} {ls : List Lexeme}
      (hkind : lexeme.kind ≠ .directive) (htext : lexeme.text.toList = c :: cs)
      (hread : ∀ more, Spaced more →
        Piece.recognise fresh c (c :: (cs ++ more)) = (.token lexeme, cs.length + 1))
      (hrest : Respells ((c :: cs).contains '\n') ls) : Respells fresh (lexeme :: ls)

/-- A preprocessor line goes on to a line end or to the end of the text, and so does what is given
up on. -/
theorem Piece.ends_of_recognise {fresh : Bool} {c : Char} {rest : List Char} {kind : PieceKind}
    {n : Nat} (h : recognise fresh c (c :: rest) = (kind, n)) (htrivia : kind.isTrivia = false)
    (hnone : spoken? ⟨kind, c :: rest.take (n - 1)⟩ = none) :
    rest.drop (n - 1) = [] ∨ (rest.drop (n - 1)).head? = some '\n' := by
  cases kind with
  | token lexeme =>
      have hkind : lexeme.kind = .directive := by
        simpa [spoken?, lexeme?] using hnone
      obtain ⟨blanks, -, hsaid⟩ := (spells_of_recognise h hkind).said
      exact hsaid.ends
  | faulty fault place =>
      obtain ⟨-, read, hread, hfaulty⟩ :=
        abandonedAs_recognise fresh c rest fault place (congrArg Prod.fst h)
      rw [h] at hfaulty
      have hends := drop_faultyOf hfaulty
      have hn : place < n := by
        have hsnd := congrArg Prod.snd hfaulty
        simp only [faultyOf] at hsnd
        omega
      obtain ⟨m, rfl⟩ := Nat.exists_eq_add_one_of_ne_zero (Nat.ne_of_gt (Nat.zero_lt_of_lt hn))
      exact hends
  | _ => cases htrivia

theorem Piece.freshAfter_of_isTrivia (fresh : Bool) {p : Piece} (h : p.kind.isTrivia = true) :
    p.freshAfter fresh = (p.raw.contains '\n' || fresh) := by
  obtain ⟨kind, raw⟩ := p
  cases kind with
  | token lexeme => cases h
  | faulty fault place => cases h
  | _ => rfl

/-- A line that is taken for fresh is so, or becomes so before the next token. -/
def FreshBy (taken fresh : Bool) (cs : List Char) : Prop :=
  (taken = true → fresh = true) ∨ cs = [] ∨ cs.head? = some '\n'

namespace FreshBy

variable {taken fresh : Bool} {c : Char} {rest : List Char} {n : Nat}

theorem ne_hash (h : FreshBy taken fresh (c :: rest)) {lexeme : Lexeme}
    (hr : Piece.recognise fresh c (c :: rest) = (.token lexeme, n))
    (hkind : lexeme.kind ≠ .directive) : taken = true → c ≠ '#' := by
  rintro htaken rfl
  rcases h with hfresh | hnil | hfeed
  · have hnot := Piece.not_fresh_of_hash hr hkind
    rw [hfresh htaken] at hnot
    cases hnot
  · cases hnil
  · cases hfeed

/-- What is no token, or a preprocessor line, changes nothing. -/
theorem skip (h : FreshBy taken fresh (c :: rest)) {kind : PieceKind}
    (hr : Piece.recognise fresh c (c :: rest) = (kind, n))
    (hnone : Piece.spoken? ⟨kind, c :: rest.take (n - 1)⟩ = none) :
    FreshBy taken (Piece.freshAfter fresh ⟨kind, c :: rest.take (n - 1)⟩) (rest.drop (n - 1)) := by
  cases htrivia : kind.isTrivia with
  | false => exact .inr (Piece.ends_of_recognise hr htrivia hnone)
  | true =>
      refine .inl fun htaken => ?_
      rw [Piece.freshAfter_of_isTrivia fresh htrivia]
      rcases h with hfresh | hnil | hfeed
      · rw [hfresh htaken, Bool.or_true]
      · cases hnil
      · obtain rfl : c = '\n' := Option.some.inj hfeed
        rfl

end FreshBy

/-- A token that is read at the start of a text, in front of lexemes that are read again. -/
theorem Respells.of_recognise {taken fresh : Bool} {c : Char} {rest : List Char} {n : Nat}
    {lexeme : Lexeme} {ls : List Lexeme}
    (hr : Piece.recognise fresh c (c :: rest) = (.token lexeme, n))
    (hkind : lexeme.kind ≠ .directive) (hhash : taken = true → c ≠ '#')
    (hrest : Respells ((c :: rest.take (n - 1)).contains '\n') ls) :
    Respells taken (lexeme :: ls) := by
  have hspelled := Piece.spelledAs_recognise fresh c rest lexeme (congrArg Prod.fst hr) hkind
  rw [hr] at hspelled
  obtain ⟨hpos, htext⟩ := hspelled
  obtain ⟨m, rfl⟩ := Nat.exists_eq_add_one_of_ne_zero (Nat.ne_of_gt hpos)
  have hlength : (rest.take m).length = m :=
    List.length_take_of_le (Nat.le_of_succ_le_succ (Piece.le_length_of_recognise hr hkind))
  refine .cons hkind ?_ (fun more hmore => ?_) hrest
  · rw [htext, String.toList_ofList]
    rfl
  · exact (Piece.recognise_spaced hr hkind hhash hmore).trans (by rw [Nat.add_sub_cancel, hlength])

theorem respells_of_pieces (fresh : Bool) (cs : List Char) : ∀ taken : Bool,
    FreshBy taken fresh cs → Respells taken ((pieces fresh cs).filterMap Piece.spoken?) := by
  fun_induction pieces fresh cs with
  | case1 => exact fun _ _ => .nil
  | case2 fresh c rest kind n hr piece ih =>
      intro taken h
      cases hspoken : piece.spoken? with
      | some lexeme =>
          obtain ⟨rfl, hkind⟩ : kind = .token lexeme ∧ lexeme.kind ≠ .directive :=
            Piece.spoken?_eq_some.1 hspoken
          rw [List.filterMap_cons_some hspoken]
          refine .of_recognise hr hkind (h.ne_hash hr hkind) (ih _ (.inl fun hfeed => ?_))
          exact Bool.or_eq_true_iff.2 (.inl hfeed)
      | none =>
          rw [List.filterMap_cons_none hspoken]
          exact ih taken (h.skip hr hspoken)

/-- The pieces that single spaces between lexemes make. -/
def respelled : List Lexeme → List Piece
  | [] => []
  | [l] => [⟨.token l, l.text.toList⟩]
  | l :: ls => ⟨.token l, l.text.toList⟩ :: ⟨.layout, [' ']⟩ :: respelled ls

theorem pieces_space {fresh : Bool} {c : Char} {cs : List Char} (hc : Text.isLayout c = false) :
    pieces fresh (' ' :: c :: cs) = ⟨.layout, [' ']⟩ :: pieces fresh (c :: cs) := by
  have hrecognise : Piece.recognise fresh ' ' (' ' :: c :: cs) = (.layout, 1) := by
    rw [Piece.recognise, Piece.trivia?_cons (by simp) (by simp) (by simp), if_pos (by decide),
      List.takeWhile_cons, if_neg (by simp [hc])]
    rfl
  rw [pieces_cons hrecognise]
  rfl

theorem joined_nil : joined [] = "" := String.intercalate_nil

theorem joined_singleton (l : Lexeme) : joined [l] = l.text := String.intercalate_singleton

theorem toList_joined_cons_cons (l l' : Lexeme) (ls : List Lexeme) :
    (joined (l :: l' :: ls)).toList = l.text.toList ++ ' ' :: (joined (l' :: ls)).toList := by
  rw [joined, List.map_cons, List.map_cons, String.intercalate_cons_cons, String.toList_append,
    String.toList_append, List.append_assoc]
  rfl

theorem exists_joined_cons {l : Lexeme} {c : Char} {cs : List Char} (h : l.text.toList = c :: cs)
    (ls : List Lexeme) : ∃ behind, (joined (l :: ls)).toList = c :: behind := by
  cases ls with
  | nil => exact ⟨cs, by rw [joined_singleton, h]⟩
  | cons l' ls => exact ⟨_, by rw [toList_joined_cons_cons, h, List.cons_append]⟩

/-- Lexemes that are read again are read from their spellings with single spaces between them. -/
theorem pieces_joined {fresh : Bool} {ls : List Lexeme} (h : Respells fresh ls) :
    pieces fresh (joined ls).toList = respelled ls := by
  induction h with
  | nil => rw [joined_nil, String.toList_empty, pieces, respelled]
  | @cons fresh lexeme c cs ls hkind htext hread hrest ih =>
      have hpiece : ∀ more, Spaced more → pieces fresh (c :: (cs ++ more)) =
          ⟨.token lexeme, lexeme.text.toList⟩ :: pieces ((c :: cs).contains '\n') more := by
        intro more hmore
        rw [pieces_cons (hread more hmore), Nat.add_sub_cancel, List.take_left, List.drop_left,
          htext, Piece.freshAfter, Bool.or_false]
      cases hrest with
      | nil =>
          have hlast := hpiece [] .nil
          rw [List.append_nil, pieces] at hlast
          rw [joined_singleton, htext]
          exact hlast
      | @cons _ l d ds ls _ htext' hread' _ =>
          -- a token does not start with layout, so the space is on its own
          have hlayout : Text.isLayout d = false :=
            (Piece.of_trivia?_eq_none (Piece.token_of_recognise (hread' [] .nil)).1).1
          obtain ⟨behind, hbehind⟩ : ∃ behind, (joined (l :: ls)).toList = d :: behind :=
            exists_joined_cons htext' ls
          rw [toList_joined_cons_cons, htext, List.cons_append, hpiece _ (.space _), hbehind,
            pieces_space hlayout, ← hbehind, ih]
          rfl

theorem filterMap_respelled {α : Type} {f : Piece → Option α} (hf : ∀ raw, f ⟨.layout, raw⟩ = none)
    (ls : List Lexeme) :
    (respelled ls).filterMap f = ls.filterMap fun l => f ⟨.token l, l.text.toList⟩ := by
  fun_induction respelled ls with
  | case1 => rfl
  | case2 l => rfl
  | case3 l ls hne ih => simp only [List.filterMap_cons, hf, ih]

theorem not_faulty_of_mem_respelled {ls : List Lexeme} {p : Piece} (h : p ∈ respelled ls)
    (fault : Fault) (place : Nat) : p.kind ≠ .faulty fault place := by
  fun_induction respelled ls with
  | case1 => simp at h
  | case2 l =>
      obtain rfl := List.mem_singleton.1 h
      exact nofun
  | case3 l ls hne ih =>
      rcases List.mem_cons.1 h with rfl | h
      · exact nofun
      rcases List.mem_cons.1 h with rfl | h
      · exact nofun
      · exact ih h

/-- The tokens of a text, preprocessor lines left out and written down with single spaces between
them, are read again as they are, without any others and without a remark. -/
theorem tokens_joined (text : List Char) :
    (tokens (joined (spoken text)).toList).map (·.toLexeme) = spoken text ∧
      (∀ t ∈ tokens (joined (spoken text)).toList, t.kind ≠ .directive) ∧
      tokenDiagnostics (joined (spoken text)).toList = [] := by
  have hpieces : pieces true (joined (spoken text)).toList = respelled (spoken text) := by
    refine pieces_joined ?_
    rw [spoken_eq_filterMap]
    exact respells_of_pieces true text true (.inl fun h => h)
  have hsame : (tokens (joined (spoken text)).toList).map (·.toLexeme) = spoken text := by
    rw [map_toLexeme_tokens, hpieces, filterMap_respelled fun _ => rfl]
    exact List.filterMap_some
  refine ⟨hsame, fun t ht => ?_, ?_⟩
  · have hmem : t.toLexeme ∈ spoken text := hsame ▸ List.mem_map_of_mem ht
    obtain ⟨u, hu, heq⟩ := List.mem_map.1 hmem
    rw [← heq]
    simpa using (List.mem_filter.1 hu).2
  · have hfaults : faults (joined (spoken text)).toList = [] := by
      refine List.filterMap_eq_nil_iff.2 fun e he => ?_
      have hpiece := mem_pieces_of_mem_placed he
      rw [hpieces] at hpiece
      obtain ⟨p, kind, raw⟩ := e
      cases kind with
      | faulty fault place => exact absurd rfl (not_faulty_of_mem_respelled hpiece fault place)
      | _ => rfl
    rw [tokenDiagnostics, hfaults, List.map_nil]

end CxxFloor
