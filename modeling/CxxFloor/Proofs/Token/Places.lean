/-
# Where tokens stand

The pieces of a text follow each other without a gap, so a token starts where
the text before it ends, is not empty, and ends before the next token starts
(`tokens_sorted`).  A token other than a preprocessor line is spelled as the
text reads there (`slice_token`); a preprocessor line is not, since comments
and joined line ends are taken out of its spelling.
-/
import CxxFloor.Token.Stream

namespace CxxFloor

/-! ## Placed pieces -/

theorem offset_le_of_mem_placed {p : Position} {ps : List Piece} {e : Position × Piece}
    (h : e ∈ placed p ps) : p.offset ≤ e.1.offset := by
  induction ps generalizing p with
  | nil => simp [placed] at h
  | cons piece ps ih =>
      rcases List.mem_cons.1 h with rfl | h
      · exact Nat.le_refl _
      · have := ih h
        rw [Position.after_offset] at this
        omega

theorem placed_sorted (p : Position) (ps : List Piece) :
    (placed p ps).Pairwise fun e e' => e.1.offset + e.2.raw.length ≤ e'.1.offset := by
  induction ps generalizing p with
  | nil => exact List.Pairwise.nil
  | cons piece ps ih =>
      refine List.pairwise_cons.2 ⟨fun e he => ?_, ih _⟩
      have := offset_le_of_mem_placed he
      rwa [Position.after_offset] at this

theorem split_of_mem_placed {p : Position} {ps : List Piece} {e : Position × Piece}
    (h : e ∈ placed p ps) : ∃ before behind,
      ps = before ++ e.2 :: behind ∧ e.1 = p.after (before.flatMap (·.raw)) := by
  induction ps generalizing p with
  | nil => simp [placed] at h
  | cons piece ps ih =>
      rcases List.mem_cons.1 h with rfl | h
      · exact ⟨[], ps, rfl, rfl⟩
      · obtain ⟨before, behind, rfl, hplace⟩ := ih h
        refine ⟨piece :: before, behind, rfl, ?_⟩
        rw [List.flatMap_cons, Position.after_append]
        exact hplace

theorem map_snd_placed (p : Position) (ps : List Piece) : (placed p ps).map (·.2) = ps := by
  induction ps generalizing p with
  | nil => rfl
  | cons piece ps ih => rw [placed, List.map_cons, ih]

theorem mem_pieces_of_mem_placed {p : Position} {ps : List Piece} {e : Position × Piece}
    (h : e ∈ placed p ps) : e.2 ∈ ps := by
  rw [← map_snd_placed p ps]
  exact List.mem_map_of_mem h

/-! ## The spelling of a token -/

namespace Piece

/-- A recognised token other than a preprocessor line is spelled as the first characters of the
text. -/
def SpelledAs (cs : List Char) (r : PieceKind × Nat) : Prop :=
  ∀ lexeme, r.1 = .token lexeme → lexeme.kind ≠ .directive →
    0 < r.2 ∧ lexeme.text = String.ofList (cs.take r.2)

theorem spelledAs_tokenOf {kind : TokenKind} {cs : List Char} {n : Nat} (hn : 0 < n) :
    SpelledAs cs (tokenOf kind cs n) := by
  intro lexeme hl _
  cases hl
  exact ⟨hn, rfl⟩

theorem spelledAs_faultyOf {fault : Fault} {place read : Nat} {cs : List Char} :
    SpelledAs cs (faultyOf fault place read cs) := by
  intro lexeme hl
  cases hl

theorem spelledAs_directive (cs : List Char) : SpelledAs cs (directive cs) := by
  unfold directive
  split
  next n hn =>
    intro lexeme hl hkind
    cases hl
    exact absurd rfl hkind
  next => exact spelledAs_faultyOf

theorem spelledAs_quotation (before : Nat) (quote : Char) (cs : List Char) :
    SpelledAs cs (quotation before quote cs) := by
  unfold quotation
  split
  · exact spelledAs_tokenOf (by omega)
  · exact spelledAs_faultyOf

theorem spelledAs_rawString (before : Nat) (cs : List Char) :
    SpelledAs cs (rawString before cs) := by
  unfold rawString
  dsimp only
  split
  · split
    · exact spelledAs_tokenOf (by omega)
    · exact spelledAs_faultyOf
  · exact spelledAs_faultyOf

theorem spelledAs_prefixed (p cs : List Char) : SpelledAs cs (prefixed p cs) := by
  unfold prefixed
  split
  · exact spelledAs_rawString _ _
  · exact spelledAs_quotation _ _ _

theorem spelledAs_punctuator (c : Char) (cs : List Char) : SpelledAs cs (punctuator c cs) := by
  unfold punctuator
  split
  next p hp =>
    have hlong : ∀ p ∈ longPunctuators, 0 < p.length := by decide
    exact spelledAs_tokenOf (hlong p (List.mem_of_find?_eq_some hp))
  next =>
    split
    · exact spelledAs_tokenOf Nat.one_pos
    · exact spelledAs_faultyOf

theorem spelledAs_token (fresh : Bool) (c : Char) (rest : List Char) :
    SpelledAs (c :: rest) (token fresh c (c :: rest)) := by
  unfold token
  split
  · exact spelledAs_directive _
  split
  · exact spelledAs_prefixed _ _
  split
  next hword =>
    have hc : Text.continuesWord c = true := Text.continuesWord_of_startsWord hword
    exact spelledAs_tokenOf (by simp [Extent.word, hc])
  split
  · exact spelledAs_tokenOf (by simp only [Extent.number]; omega)
  split
  · exact spelledAs_quotation _ _ _
  · exact spelledAs_punctuator _ _

theorem spelledAs_trivia {cs : List Char} {r : PieceKind × Nat} (h : trivia? cs = some r) :
    SpelledAs cs r := by
  intro lexeme hl
  unfold trivia? at h
  repeat' split at h
  all_goals
    first
      | (cases h; cases hl)
      | cases h

theorem spelledAs_recognise (fresh : Bool) (c : Char) (rest : List Char) :
    SpelledAs (c :: rest) (recognise fresh c (c :: rest)) := by
  unfold recognise
  cases h : trivia? (c :: rest) with
  | none => exact spelledAs_token fresh c rest
  | some r => exact spelledAs_trivia h

end Piece

/-- The spelling of a token piece is its text, unless it is a preprocessor line. -/
theorem text_of_mem_pieces {fresh : Bool} {cs : List Char} {lexeme : Lexeme} {raw : List Char}
    (h : (⟨.token lexeme, raw⟩ : Piece) ∈ pieces fresh cs) (hkind : lexeme.kind ≠ .directive) :
    lexeme.text = String.ofList raw := by
  fun_induction pieces fresh cs with
  | case1 => simp at h
  | case2 fresh c rest kind length hk piece ih =>
      rcases List.mem_cons.1 h with heq | h
      · have hpiece : kind = .token lexeme ∧ raw = c :: rest.take (length - 1) := by
          simpa [piece, eq_comm] using heq
        have hspelled := Piece.spelledAs_recognise fresh c rest lexeme (by rw [hk]; exact hpiece.1) hkind
        rw [hk] at hspelled
        obtain ⟨hpos, htext⟩ := hspelled
        rw [htext, hpiece.2]
        obtain ⟨n, rfl⟩ : ∃ n, length = n + 1 := ⟨length - 1, by omega⟩
        rfl
      · exact ih h

/-! ## Tokens -/

theorem exists_piece_of_mem_tokens {text : List Char} {t : Token} (h : t ∈ tokens text) :
    ∃ raw, (t.start, ⟨.token t.toLexeme, raw⟩) ∈ placedPieces text ∧
      t.stop = t.start.offset + raw.length := by
  obtain ⟨⟨p, kind, raw⟩, hmem, htoken⟩ := List.mem_filterMap.1 h
  cases kind with
  | token lexeme =>
      cases htoken
      exact ⟨raw, hmem, rfl⟩
  | _ => cases htoken

theorem start_lt_stop {text : List Char} {t : Token} (h : t ∈ tokens text) :
    t.start.offset < t.stop := by
  obtain ⟨raw, hmem, hstop⟩ := exists_piece_of_mem_tokens h
  have hne : raw ≠ [] := raw_ne_nil_of_mem_pieces (mem_pieces_of_mem_placed hmem)
  have := List.length_pos_iff.2 hne
  omega

theorem tokens_sorted (text : List Char) :
    (tokens text).Pairwise fun t u => t.stop ≤ u.start.offset := by
  refine List.Pairwise.filterMap Piece.asToken? ?_ (placed_sorted .start (pieces true text))
  rintro ⟨p, kind, raw⟩ ⟨p', kind', raw'⟩ hle t ht u hu
  cases kind with
  | token lexeme =>
      cases kind' with
      | token lexeme' =>
          cases ht
          cases hu
          exact hle
      | _ => cases hu
  | _ => cases ht

/-- The place of a token is where the text before it ends, and what stands between its ends is
its spelling, unless it is a preprocessor line. -/
theorem split_of_mem_tokens {text : List Char} {t : Token} (h : t ∈ tokens text) :
    ∃ before raw behind, text = before ++ raw ++ behind ∧ t.start = Position.start.after before ∧
      t.stop = t.start.offset + raw.length ∧
      (t.kind ≠ .directive → t.text = String.ofList raw) := by
  obtain ⟨raw, hmem, hstop⟩ := exists_piece_of_mem_tokens h
  obtain ⟨before, behind, hpieces, hplace⟩ := split_of_mem_placed hmem
  refine ⟨before.flatMap (·.raw), raw, behind.flatMap (·.raw), ?_, hplace, hstop,
    fun hkind => text_of_mem_pieces (mem_pieces_of_mem_placed hmem) hkind⟩
  rw [← flatMap_raw_pieces true text, hpieces, List.flatMap_append, List.flatMap_cons,
    List.append_assoc]

theorem stop_le_length {text : List Char} {t : Token} (h : t ∈ tokens text) :
    t.stop ≤ text.length := by
  obtain ⟨before, raw, behind, htext, hplace, hstop, -⟩ := split_of_mem_tokens h
  have hoffset : t.start.offset = before.length := by
    rw [hplace, Position.after_offset]
    simp [Position.start]
  rw [hstop, hoffset, htext, List.append_assoc, List.length_append, List.length_append]
  omega

theorem slice_token {text : List Char} {t : Token} (h : t ∈ tokens text)
    (hkind : t.kind ≠ .directive) : Text.slice text t.start.offset t.stop = t.text := by
  obtain ⟨before, raw, behind, htext, hplace, hstop, hspelled⟩ := split_of_mem_tokens h
  have hoffset : t.start.offset = before.length := by
    rw [hplace, Position.after_offset]
    simp [Position.start]
  rw [hspelled hkind, Text.slice, hstop, hoffset, htext, List.append_assoc, List.drop_left,
    Nat.add_sub_cancel_left, List.take_left]

end CxxFloor
