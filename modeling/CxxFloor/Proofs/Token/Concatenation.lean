/-
# The tokens of two texts in a row

A text that ends with a semicolon and a line end, and that has no faulty
piece, is cut the same way whatever follows: the semicolon is looked at by
every recogniser before the end of the text is, and the line end makes the
line fresh.  So the pieces behind it are those of the second text on its own,
a first stretch of layout apart, and every token of the second text stands
where it stood, moved by the characters and the lines of the first
(`tokens_append`, `tokenDiagnostics_append`).
-/
import CxxFloor.Proofs.Text.Lines
import CxxFloor.Proofs.Token.Ahead
import CxxFloor.Proofs.Token.Places

namespace CxxFloor

/-! ## Moved places -/

def Position.shift (n l : Nat) (p : Position) : Position :=
  ⟨p.offset + n, p.line + l, p.column⟩

def Token.shift (n l : Nat) (t : Token) : Token :=
  { t with start := t.start.shift n l, stop := t.stop + n }

def Diagnostic.shift (l : Nat) (d : Diagnostic) : Diagnostic := { d with line := d.line + l }

namespace Position

variable {n l : Nat}

theorem next_shift (p : Position) (c : Char) : (p.shift n l).next c = (p.next c).shift n l := by
  unfold next
  split <;> simp [shift] <;> omega

theorem after_shift (p : Position) (cs : List Char) :
    (p.shift n l).after cs = (p.after cs).shift n l := by
  induction cs generalizing p with
  | nil => rfl
  | cons c cs ih => rw [after_cons, after_cons, next_shift, ih]

theorem after_of_getLast? {cs : List Char} (h : cs.getLast? = some '\n') :
    start.after cs = start.shift cs.length (cs.count '\n') := by
  obtain ⟨ds, rfl⟩ := List.getLast?_eq_some_iff.1 h
  rw [after_append, after_cons, after_nil, next, if_pos rfl, after_offset, after_line]
  simp only [shift, start, List.length_append, List.length_singleton, List.count_append,
    List.count_singleton_self, Position.mk.injEq]
  exact ⟨by omega, by omega, trivial⟩

end Position

/-! ## Placed pieces in a row -/

theorem placed_append (p : Position) (ps qs : List Piece) :
    placed p (ps ++ qs) = placed p ps ++ placed (p.after (ps.flatMap (·.raw))) qs := by
  induction ps generalizing p with
  | nil => rfl
  | cons piece ps ih =>
      rw [List.cons_append, placed, placed, ih, List.flatMap_cons, Position.after_append]
      rfl

theorem placed_shift {n l : Nat} (p : Position) (ps : List Piece) :
    placed (p.shift n l) ps = (placed p ps).map fun e => (e.1.shift n l, e.2) := by
  induction ps generalizing p with
  | nil => rfl
  | cons piece ps ih =>
      rw [placed, placed, Position.after_shift, ih]
      rfl

theorem Piece.asToken?_shift {n l : Nat} (e : Position × Piece) :
    asToken? (e.1.shift n l, e.2) = (asToken? e).map (Token.shift n l) := by
  obtain ⟨p, kind, raw⟩ := e
  cases kind with
  | token lexeme =>
      simp only [asToken?, Option.map_some, Token.shift, Position.shift]
      congr 2
      omega
  | _ => rfl

theorem Piece.asFault?_shift {n l : Nat} (e : Position × Piece) :
    asFault? (e.1.shift n l, e.2) = (asFault? e).map fun f => (f.1.shift n l, f.2) := by
  obtain ⟨p, kind, raw⟩ := e
  cases kind with
  | faulty fault place => simp [asFault?, Position.after_shift]
  | _ => rfl

/-! ## Pieces of texts in a row -/

/-- The text ends with a semicolon and a line end right behind it. -/
def EndsStatement (cs : List Char) : Prop :=
  ∃ t, (tokens cs).getLast? = some t ∧ t.isPunct ";" = true ∧ t.stop + 1 = cs.length ∧
    cs.getLast? = some '\n'

theorem pieces_cons {fresh : Bool} {c : Char} {cs : List Char} {kind : PieceKind} {n : Nat}
    (h : Piece.recognise fresh c (c :: cs) = (kind, n)) :
    pieces fresh (c :: cs) = ⟨kind, c :: cs.take (n - 1)⟩ ::
      pieces (Piece.freshAfter fresh ⟨kind, c :: cs.take (n - 1)⟩) (cs.drop (n - 1)) := by
  rw [pieces, h]

/-- The pieces before a semicolon at the end of a text are the same whatever follows. -/
theorem pieces_append {fresh : Bool} {cs : List Char} {ps qs : List Piece}
    (h : pieces fresh cs = ps ++ qs) (hqs : qs.flatMap (·.raw) = [';', '\n'])
    (hintact : ∀ p ∈ ps, ∀ fault place, p.kind ≠ .faulty fault place) :
    ∃ fresh', ∀ more, pieces fresh (cs ++ more) = ps ++ pieces fresh' (';' :: '\n' :: more) := by
  induction ps generalizing fresh cs with
  | nil =>
      refine ⟨fresh, fun more => ?_⟩
      rw [← flatMap_raw_pieces fresh cs, h, List.nil_append, hqs]
      rfl
  | cons p ps ih =>
      have htext : cs = (p :: ps).flatMap (·.raw) ++ [';', '\n'] := by
        rw [← flatMap_raw_pieces fresh cs, h, List.flatMap_append, hqs]
      cases cs with
      | nil => simp at htext
      | cons c cs =>
          have hended : LineEnded (c :: cs) := by
            refine ⟨(p :: ps).flatMap (·.raw) ++ [';'], ?_, by simp⟩
            rw [htext, List.append_assoc]
            rfl
          have hsemicolon : ';' ∈ c :: cs := by simp [htext]
          obtain ⟨⟨kind, n⟩, hr⟩ : ∃ r, Piece.recognise fresh c (c :: cs) = r := ⟨_, rfl⟩
          rw [pieces_cons hr, List.cons_append] at h
          obtain ⟨rfl, hrest⟩ := List.cons.inj h
          obtain ⟨fresh', hfresh⟩ :=
            ih hrest fun q hq => hintact q (List.mem_cons_of_mem _ hq)
          refine ⟨fresh', fun more => ?_⟩
          -- the piece ends before the text does, since the semicolon stands behind it
          have hlt : n - 1 < cs.length := by
            refine Nat.lt_of_not_le ?_
            intro hle
            rw [List.drop_of_length_le hle, pieces] at hrest
            have hnil : qs = [] := (List.append_eq_nil_iff.1 hrest.symm).2
            simp [hnil] at hqs
          have hwhole : Piece.Intact (Piece.recognise fresh c (c :: cs)) := by
            rw [hr]
            exact hintact _ List.mem_cons_self
          have hsame := Piece.recognise_append hended hsemicolon (by decide) hwhole more
          rw [hr, List.cons_append] at hsame
          rw [List.cons_append, pieces_cons hsame, List.take_append_of_le_length (Nat.le_of_lt hlt),
            List.drop_append_of_le_length (Nat.le_of_lt hlt), hfresh, List.cons_append]

/-- Layout at the start of a text is one piece, and leaves a fresh line. -/
theorem pieces_layout {c : Char} {cs : List Char} {fresh : Bool} (hc : Text.isLayout c = true)
    (hfresh : fresh = true ∨ c = '\n') :
    pieces fresh (c :: cs) = ⟨.layout, c :: cs.takeWhile Text.isLayout⟩ ::
      pieces true (cs.dropWhile Text.isLayout) := by
  have hne : c ≠ '\\' ∧ c ≠ '/' := by
    constructor <;> rintro rfl <;> exact absurd hc (by decide)
  have hrecognise : Piece.recognise fresh c (c :: cs)
      = (.layout, 1 + (cs.takeWhile Text.isLayout).length) := by
    rw [Piece.recognise, Piece.trivia?_cons (fun _ h _ => hne.1 h) (fun _ h _ => hne.2 h)
      (fun _ h _ => hne.2 h), if_pos hc]
    rfl
  have htake : cs.take (cs.takeWhile Text.isLayout).length = cs.takeWhile Text.isLayout :=
    (List.prefix_iff_eq_take.1 (List.takeWhile_prefix _)).symm
  rw [pieces_cons hrecognise, Nat.add_sub_cancel_left, htake, Extent.drop_length_takeWhile]
  congr 2
  rcases hfresh with rfl | rfl
  · simp [Piece.freshAfter]
  · simp [Piece.freshAfter]

/-- The semicolon and the line end behind it take the layout at the start of what follows along. -/
theorem pieces_semicolon (fresh : Bool) (more : List Char) :
    pieces fresh (';' :: '\n' :: more) =
      ⟨.token ⟨.punctuator, ";"⟩, [';']⟩ :: ⟨.layout, '\n' :: more.takeWhile Text.isLayout⟩ ::
        pieces true (more.dropWhile Text.isLayout) := by
  have hrecognise : Piece.recognise fresh ';' (';' :: '\n' :: more)
      = (.token ⟨.punctuator, ";"⟩, 1) := by
    cases fresh <;> rfl
  rw [pieces_cons hrecognise, Nat.sub_self, List.drop_zero, List.take_zero,
    pieces_layout (by decide) (Or.inr rfl)]

/-- Layout at the start of a text makes no difference to the pieces behind it. -/
theorem filterMap_placed_layout {α : Type} {f : Position × Piece → Option α}
    (hf : ∀ p raw, f (p, ⟨.layout, raw⟩) = none) (p : Position) (cs : List Char) :
    (placed p (pieces true cs)).filterMap f =
      (placed (p.after (cs.takeWhile Text.isLayout))
        (pieces true (cs.dropWhile Text.isLayout))).filterMap f := by
  cases cs with
  | nil => rfl
  | cons c cs =>
      by_cases hc : Text.isLayout c = true
      · rw [pieces_layout hc (Or.inl rfl), placed, List.filterMap_cons, hf]
        simp [hc]
      · simp [hc]

theorem not_faulty_of_faults {cs : List Char} (h : faults cs = []) {p : Piece}
    (hp : p ∈ pieces true cs) (fault : Fault) (place : Nat) : p.kind ≠ .faulty fault place := by
  rintro hkind
  rw [← map_snd_placed .start (pieces true cs)] at hp
  obtain ⟨⟨q, p'⟩, hmem, rfl⟩ := List.mem_map.1 hp
  obtain ⟨kind, raw⟩ := p'
  obtain rfl : kind = _ := hkind
  have hnone := List.filterMap_eq_nil_iff.1 h _ hmem
  cases hnone

theorem EndsStatement.split {cs : List Char} (h : EndsStatement cs) :
    cs.getLast? = some '\n' ∧
      ∃ ps qs, pieces true cs = ps ++ qs ∧ qs.flatMap (·.raw) = [';', '\n'] := by
  obtain ⟨t, hlast, hsemicolon, hstop, hend⟩ := h
  obtain ⟨raw, hmem, hlength⟩ := exists_piece_of_mem_tokens (List.mem_of_getLast? hlast)
  obtain ⟨ps, behind, hpieces, hplace⟩ := split_of_mem_placed hmem
  have hkind : t.kind = .punctuator ∧ t.text = ";" := by
    simpa [Lexeme.isPunct] using hsemicolon
  have hraw : raw = [';'] := by
    have htext := text_of_mem_pieces (mem_pieces_of_mem_placed hmem) (by rw [hkind.1]; decide)
    rw [hkind.2] at htext
    exact (String.ofList_injective htext).symm
  have htext : cs = ps.flatMap (·.raw) ++ (raw ++ behind.flatMap (·.raw)) := by
    rw [← flatMap_raw_pieces true cs, hpieces, List.flatMap_append, List.flatMap_cons]
  have hone : (behind.flatMap (·.raw)).length = 1 := by
    have hoffset : t.start.offset = (ps.flatMap (·.raw)).length := by
      have hstart := congrArg Position.offset hplace
      rw [Position.after_offset] at hstart
      simpa [Position.start] using hstart
    have hall := congrArg List.length htext
    rw [List.length_append, List.length_append] at hall
    omega
  obtain ⟨c, hc⟩ := List.length_eq_one_iff.1 hone
  refine ⟨hend, ps, _, hpieces, ?_⟩
  rw [List.flatMap_cons, hraw, hc]
  rw [htext, hc] at hend
  simp at hend
  rw [hend]
  rfl

/-- The pieces that are asked for, of two texts in a row. -/
theorem filterMap_placedPieces_append {α : Type} {f : Position × Piece → Option α}
    (hf : ∀ p raw, f (p, ⟨.layout, raw⟩) = none) {cs : List Char} (hends : EndsStatement cs)
    (hfaults : faults cs = []) (more : List Char) :
    (placedPieces (cs ++ more)).filterMap f =
      (placedPieces cs).filterMap f ++
        (placed (Position.start.after cs) (pieces true more)).filterMap f := by
  obtain ⟨-, ps, qs, hpieces, hqs⟩ := hends.split
  have hintact : ∀ p ∈ ps, ∀ fault place, p.kind ≠ .faulty fault place := by
    intro p hp
    refine not_faulty_of_faults hfaults ?_
    rw [hpieces]
    exact List.mem_append_left _ hp
  obtain ⟨fresh, hmore⟩ := pieces_append hpieces hqs hintact
  have hself := hmore []
  rw [List.append_nil] at hself
  have hplace : Position.start.after cs =
      ((Position.start.after (ps.flatMap (·.raw))).next ';').next '\n' := by
    rw [← flatMap_raw_pieces true cs, hpieces, List.flatMap_append, hqs, Position.after_append,
      Position.after_cons, Position.after_cons, Position.after_nil]
  -- the two cuts differ in the layout behind the semicolon only, which is not asked for
  rw [placedPieces, placedPieces, hmore, hself, pieces_semicolon, pieces_semicolon,
    filterMap_placed_layout hf, hplace, placed_append, placed_append, List.filterMap_append,
    List.filterMap_append, List.append_assoc]
  congr 1
  simp only [placed, List.filterMap_cons, hf, Position.after_cons, Position.after_nil]
  split <;> simp [pieces, placed]

variable {cs : List Char}

theorem tokens_append (hends : EndsStatement cs) (hfaults : faults cs = []) (more : List Char) :
    tokens (cs ++ more) =
      tokens cs ++ (tokens more).map (Token.shift cs.length (cs.count '\n')) := by
  have hend : cs.getLast? = some '\n' := by
    obtain ⟨t, -, -, -, hend⟩ := hends
    exact hend
  rw [tokens, filterMap_placedPieces_append (fun p raw => rfl) hends hfaults,
    Position.after_of_getLast? hend, placed_shift, List.filterMap_map, tokens, tokens,
    placedPieces, List.map_filterMap]
  congr 2
  exact funext fun e => Piece.asToken?_shift e

/-- The remarks on the tokens of two texts in a row. -/
theorem tokenDiagnostics_append (hends : EndsStatement cs) (hfaults : faults cs = [])
    (more : List Char) :
    tokenDiagnostics (cs ++ more) =
      (tokenDiagnostics more).map (Diagnostic.shift (cs.count '\n')) := by
  have hend : cs.getLast? = some '\n' := by
    obtain ⟨t, -, -, -, hend⟩ := hends
    exact hend
  have hmore : faults (cs ++ more) =
      (faults more).map fun f => (f.1.shift cs.length (cs.count '\n'), f.2) := by
    rw [faults, filterMap_placedPieces_append (fun p raw => rfl) hends hfaults,
      Position.after_of_getLast? hend, placed_shift, List.filterMap_map, ← faults, hfaults,
      List.nil_append, faults, placedPieces, List.map_filterMap]
    congr 1
    exact funext fun e => Piece.asFault?_shift e
  rw [tokenDiagnostics, hmore, tokenDiagnostics, List.map_map, List.map_map]
  refine List.map_congr_left ?_
  intro e _
  simp [Fault.diagnostic, Position.shift, Diagnostic.shift]

end CxxFloor
