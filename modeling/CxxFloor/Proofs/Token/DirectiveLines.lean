/-
# Comments on preprocessor lines

A preprocessor line is read character by character, and a comment starts on it
wherever `//` or `/*` stands: no literal is recognised on such a line, so the
characters between two quotes are like any others.  Without an opener the line
is one directive, spelled as it stands.  With one it is not
(`directive_ignores_quotes`): what stands behind a `//` is left out, and from a
`/*` on everything belongs to the directive up to the next `*/`, the line end
included if that stands further down.  If there is none, the rest of the text
is given up on together with the directive.

Which lines this is about is said by the places reading comes to (`Reaches`):
a line that starts inside a comment or a raw string is none of them.
-/
import CxxFloor.Proofs.Token.Concatenation
import CxxFloor.Proofs.Token.Spelling
import CxxFloor.Proofs.Token.Stretches

namespace CxxFloor

/-! ## Where reading comes to -/

/-- Reading comes to this offset: no piece lies across it but layout, which is passed one character
after the other. -/
def Reaches (text : List Char) (n : Nat) : Prop :=
  ∀ e ∈ placedPieces text, e.2.kind ≠ .layout →
    e.1.offset + e.2.raw.length ≤ n ∨ n ≤ e.1.offset

/-- What is passed in front of a placed piece and what follows it. -/
theorem of_mem_placed_append {p : Position} {ps qs : List Piece} {e : Position × Piece}
    (h : e ∈ placed p (ps ++ qs)) :
    e ∈ placed p ps ∧ e.1.offset + e.2.raw.length ≤ p.offset + (ps.flatMap (·.raw)).length ∨
      e ∈ placed (p.after (ps.flatMap (·.raw))) qs ∧
        p.offset + (ps.flatMap (·.raw)).length ≤ e.1.offset := by
  rw [placed_append] at h
  rcases List.mem_append.1 h with h | h
  · refine .inl ⟨h, ?_⟩
    obtain ⟨before, behind, rfl, hplace⟩ := split_of_mem_placed h
    rw [hplace, Position.after_offset, List.flatMap_append, List.flatMap_cons, List.length_append,
      List.length_append]
    omega
  · have hle := offset_le_of_mem_placed h
    rw [Position.after_offset] at hle
    exact .inr ⟨h, hle⟩

theorem Reaches.of_append {text : List Char} {ps qs : List Piece}
    (h : pieces true text = ps ++ qs) : Reaches text (ps.flatMap (·.raw)).length := by
  intro e he _
  rw [placedPieces, h] at he
  rcases of_mem_placed_append he with ⟨-, hle⟩ | ⟨-, hle⟩
  · exact .inl (by simpa [Position.start] using hle)
  · exact .inr (by simpa [Position.start] using hle)

theorem place_lt_of_mem_pieces {fresh : Bool} {cs : List Char} {fault : Fault} {place : Nat}
    {raw : List Char} (h : (⟨.faulty fault place, raw⟩ : Piece) ∈ pieces fresh cs) :
    place < raw.length := by
  fun_induction pieces fresh cs with
  | case1 => simp at h
  | case2 fresh c rest kind n hr piece ih =>
      rcases List.mem_cons.1 h with heq | h
      · obtain ⟨rfl, rfl⟩ : kind = .faulty fault place ∧ raw = c :: rest.take (n - 1) := by
          simpa [piece, eq_comm] using heq
        obtain ⟨habandoned, read, hread, hfaulty⟩ :=
          Piece.abandonedAs_recognise fresh c rest fault place (congrArg Prod.fst hr)
        have hlength := habandoned.lt_length
        have hle : read ≤ n := by
          have := congrArg Prod.snd (hr.symm.trans hfaulty)
          simp only [Piece.faultyOf] at this
          omega
        rw [List.length_cons] at hlength ⊢
        rw [List.length_take]
        omega
      · exact ih h

/-! ## The start of a line -/

theorem Piece.length_of_recognise_layout {fresh : Bool} {c : Char} {rest : List Char} {n : Nat}
    (h : recognise fresh c (c :: rest) = (.layout, n)) :
    Text.isLayout c = true ∧ n = 1 + (rest.takeWhile Text.isLayout).length := by
  have htrivia := trivia?_of_recognise h rfl
  unfold trivia? at htrivia
  split at htrivia
  · cases htrivia
  · cases htrivia
  · split at htrivia <;> cases htrivia
  next heq =>
    obtain ⟨rfl, rfl⟩ := List.cons_eq_cons.1 heq
    split at htrivia
    next hc =>
      cases htrivia
      exact ⟨hc, rfl⟩
    next => cases htrivia
  next => cases htrivia

theorem Piece.isLayout_of_recognise {fresh : Bool} {c : Char} {before rest : List Char} {n : Nat}
    (h : recognise fresh c (c :: (before ++ rest)) = (.layout, n)) (hle : before.length ≤ n - 1) :
    ∀ d ∈ c :: before, Text.isLayout d = true := by
  obtain ⟨hc, rfl⟩ := length_of_recognise_layout h
  rw [Nat.add_sub_cancel_left] at hle
  have hpre : before <+: (before ++ rest).takeWhile Text.isLayout :=
    List.prefix_of_prefix_length_le (List.prefix_append _ _) (List.takeWhile_prefix _) hle
  intro d hd
  rcases List.mem_cons.1 hd with rfl | hd
  · exact hc
  · exact List.all_eq_true.1 List.all_takeWhile d (hpre.subset hd)

/-- Blanks in front of a hash are one piece. -/
theorem pieces_blanks_hash {fresh : Bool} {c : Char} {blanks : List Char} (rest : List Char)
    (h : ∀ d ∈ c :: blanks, Text.isLayout d = true) :
    pieces fresh (c :: (blanks ++ '#' :: rest)) = ⟨.layout, c :: blanks⟩ ::
      pieces (Piece.freshAfter fresh ⟨.layout, c :: blanks⟩) ('#' :: rest) := by
  have hc := h c List.mem_cons_self
  have hne : c ≠ '\\' ∧ c ≠ '/' := by
    constructor <;> rintro rfl <;> exact absurd hc (by decide)
  have hrun : (blanks ++ '#' :: rest).takeWhile Text.isLayout = blanks := by
    rw [List.takeWhile_append_of_pos fun d hd => h d (List.mem_cons_of_mem c hd),
      show ('#' :: rest).takeWhile Text.isLayout = [] from rfl, List.append_nil]
  have hr : Piece.recognise fresh c (c :: (blanks ++ '#' :: rest))
      = (.layout, 1 + blanks.length) := by
    rw [Piece.recognise, Piece.trivia?_cons (fun _ h _ => hne.1 h) (fun _ h _ => hne.2 h)
      (fun _ h _ => hne.2 h), if_pos hc, hrun]
    rfl
  rw [pieces_cons hr, Nat.add_sub_cancel_left, List.take_left, List.drop_left]

/-- Behind a piece that ends within complete lines, the rest of them ends a line, or nothing is left
of them and the line is fresh. -/
theorem freshAfter_or_getLast? {c : Char} {before : List Char}
    (h : (c :: before).getLast? = some '\n') (fresh : Bool) (kind : PieceKind) (k : Nat) :
    before.drop k = [] ∧ Piece.freshAfter fresh ⟨kind, c :: before.take k⟩ = true ∨
      (before.drop k).getLast? = some '\n' := by
  have hsplit := List.take_append_drop k before
  cases hnext : before.drop k with
  | nil =>
      rw [hnext, List.append_nil] at hsplit
      have hfeed := List.mem_of_getLast? h
      exact .inl ⟨rfl, by simpa [Piece.freshAfter, hsplit] using .inl (List.mem_cons.1 hfeed)⟩
  | cons d next =>
      rw [hnext] at hsplit
      rw [← hsplit, ← List.cons_append, List.getLast?_append_cons] at h
      exact .inr h

/-- On a line that reading comes to at its start it comes to a hash behind blanks, and the line is
fresh there. -/
theorem pieces_of_hash {fresh : Bool} {cs before blanks rest : List Char} {p : Position}
    (hcs : cs = before ++ (blanks ++ '#' :: rest))
    (hstarts : before = [] ∧ fresh = true ∨ before.getLast? = some '\n')
    (hblanks : ∀ c ∈ blanks, Text.isLayout c = true)
    (hreaches : ∀ e ∈ placed p (pieces fresh cs), e.2.kind ≠ .layout →
      e.1.offset + e.2.raw.length ≤ p.offset + before.length ∨
        p.offset + before.length ≤ e.1.offset) :
    ∃ ps, ps.flatMap (·.raw) = before ++ blanks ∧
      pieces fresh cs = ps ++ pieces true ('#' :: rest) := by
  induction hlength : cs.length using Nat.strong_induction_on generalizing fresh cs before p with
  | h length ih =>
    subst hcs
    cases before with
    | nil =>
        obtain ⟨-, rfl⟩ : _ ∧ fresh = true := hstarts.resolve_right (by simp)
        cases blanks with
        | nil => exact ⟨[], rfl, rfl⟩
        | cons c blanks =>
            refine ⟨[⟨.layout, c :: blanks⟩], by simp, ?_⟩
            rw [List.nil_append, List.cons_append, pieces_blanks_hash rest hblanks]
            simp [Piece.freshAfter]
    | cons c before =>
        simp only [List.cons_append] at hreaches hlength ⊢
        obtain ⟨kind, n, hr⟩ : ∃ kind n, Piece.recognise fresh c
            (c :: (before ++ (blanks ++ '#' :: rest))) = (kind, n) := ⟨_, _, rfl⟩
        have hend := hstarts.resolve_left (by simp)
        rcases Nat.lt_or_ge before.length (n - 1) with hlt | hle
        · -- the piece lies across the start of the line, so it is layout
          have hkind : kind = .layout := by
            refine Classical.byContradiction fun hkind => ?_
            rw [pieces_cons hr] at hreaches
            have := hreaches _ List.mem_cons_self hkind
            simp only [List.length_cons, List.length_take, List.length_append] at this
            omega
          subst hkind
          have hbefore := Piece.isLayout_of_recognise hr (Nat.le_of_lt hlt)
          refine ⟨[⟨.layout, c :: (before ++ blanks)⟩], by simp, ?_⟩
          rw [← List.append_assoc, pieces_blanks_hash rest fun d hd =>
            (List.mem_append.1 (List.cons_append ▸ hd)).elim (hbefore d) (hblanks d)]
          have hfeed : '\n' ∈ c :: (before ++ blanks) :=
            List.mem_append_left blanks (List.mem_of_getLast? hend)
          simp [Piece.freshAfter, hfeed]
        · -- the piece ends on the lines before
          rw [pieces_cons hr, List.take_append_of_le_length hle,
            List.drop_append_of_le_length hle] at hreaches ⊢
          have hshort : (before.drop (n - 1) ++ (blanks ++ '#' :: rest)).length < length := by
            simp only [← hlength, List.length_cons, List.length_append, List.length_drop]
            omega
          obtain ⟨ps, hps, hpieces⟩ := ih _ hshort rfl
            (freshAfter_or_getLast? hend fresh kind (n - 1)) (fun e he hkind => by
              have := hreaches e (List.mem_cons_of_mem _ he) hkind
              rw [Position.after_offset]
              simp only [List.length_cons, List.length_take, List.length_drop] at this ⊢
              omega) rfl
          refine ⟨⟨kind, c :: before.take (n - 1)⟩ :: ps, ?_, by rw [hpieces]; rfl⟩
          rw [List.flatMap_cons, hps, ← List.append_assoc, List.cons_append,
            List.take_append_drop, List.cons_append]

/-! ## Comment openers -/

/-- A comment opener stands among the characters. -/
def HasOpener (cs : List Char) : Prop := ['/', '/'] <:+: cs ∨ ['/', '*'] <:+: cs

instance (cs : List Char) : Decidable (HasOpener cs) := inferInstanceAs (Decidable (_ ∨ _))

def StartsComment (cs : List Char) : Prop := ['/', '/'] <+: cs ∨ ['/', '*'] <+: cs

theorem hasOpener_cons {c : Char} {cs : List Char} :
    HasOpener (c :: cs) ↔ StartsComment (c :: cs) ∨ HasOpener cs := by
  unfold HasOpener StartsComment
  rw [List.infix_cons_iff, List.infix_cons_iff]
  exact or_or_or_comm

theorem hasOpener_of_append_newline {cs : List Char} (h : HasOpener (cs ++ ['\n'])) :
    HasOpener cs := by
  have hwithin : ∀ d : Char, d ≠ '\n' → ['/', d] <:+: cs ++ ['\n'] → ['/', d] <:+: cs := by
    intro d hd hopener
    refine (List.infix_concat_iff.1 hopener).resolve_left fun hsuffix => ?_
    obtain ⟨ds, hds⟩ := hsuffix
    have hlast := congrArg List.getLast? hds
    rw [List.getLast?_append_cons] at hlast
    exact hd (by simpa using hlast)
  exact h.imp (hwithin '/' (by decide)) (hwithin '*' (by decide))

theorem startsComment_cons {c : Char} {cs : List Char} : StartsComment (c :: cs) ↔
    c = '/' ∧ (cs.head? = some '/' ∨ cs.head? = some '*') := by
  cases cs with
  | nil => simp [StartsComment]
  | cons d cs => simp [StartsComment, eq_comm, and_or_left]

theorem HasOpener.exists_first {cs : List Char} (h : HasOpener cs) : ∃ kept c rest,
    cs = kept ++ '/' :: c :: rest ∧ (c = '/' ∨ c = '*') ∧ ¬ HasOpener (kept ++ ['/']) := by
  induction cs with
  | nil => simp [HasOpener] at h
  | cons d cs ih =>
      by_cases hfirst : StartsComment (d :: cs)
      · obtain ⟨rfl, hnext⟩ := startsComment_cons.1 hfirst
        obtain ⟨c, hhead, hc⟩ : ∃ c, cs.head? = some c ∧ (c = '/' ∨ c = '*') := by
          rcases hnext with h | h
          · exact ⟨_, h, .inl rfl⟩
          · exact ⟨_, h, .inr rfl⟩
        obtain ⟨rest, rfl⟩ := List.head?_eq_some_iff.1 hhead
        exact ⟨[], c, rest, rfl, hc, by decide⟩
      · obtain ⟨kept, c, rest, rfl, hc, hkept⟩ := ih ((hasOpener_cons.1 h).resolve_left hfirst)
        refine ⟨d :: kept, c, rest, rfl, hc, fun hopener => ?_⟩
        rcases hasOpener_cons.1 hopener with hstart | hopener
        · refine hfirst (startsComment_cons.2 ?_)
          have := startsComment_cons.1 hstart
          cases kept <;> exact this
        · exact hkept hopener

theorem Extent.shift_shift (e : Extent) (m n : Nat) : (e.shift n).shift m = e.shift (m + n) := by
  cases e <;> simp [shift, Nat.add_assoc]

namespace DirectiveLine

/-! ## Lines without a joined line end -/

/-- Nothing but itself is read of a character that starts no comment. -/
theorem extent_cons {c : Char} {cs : List Char} (hfeed : c ≠ '\n') (hback : c ≠ '\\')
    (hno : ¬ StartsComment (c :: cs)) : extent (c :: cs) = (extent cs).shift 1 := by
  rw [startsComment_cons] at hno
  rw [extent]
  · exact hfeed
  · rintro rest rfl
    exact absurd rfl hback
  · rintro rest rfl rfl
    exact hno ⟨rfl, .inl rfl⟩
  · rintro rest rfl rfl
    exact hno ⟨rfl, .inr rfl⟩

theorem flatten_cons {c : Char} {cs : List Char} (hback : c ≠ '\\')
    (hno : ¬ StartsComment (c :: cs)) : flatten (c :: cs) = c :: flatten cs := by
  rw [startsComment_cons] at hno
  rw [flatten]
  · rintro rest rfl
    exact absurd rfl hback
  · rintro rest rfl rfl
    exact hno ⟨rfl, .inl rfl⟩
  · rintro rest rfl rfl
    exact hno ⟨rfl, .inr rfl⟩

theorem length_le_of_extent {cs : List Char} {n : Nat} (h : extent cs = .closed n) :
    n ≤ cs.length := by
  fun_induction extent cs generalizing n with
  | case1 => cases h; exact Nat.le_refl _
  | case2 => cases h; exact Nat.zero_le _
  | case3 rest ih =>
      obtain ⟨m, hm, rfl⟩ := Extent.closed_of_shift h
      have := ih hm
      simp only [List.length_cons]
      omega
  | case4 rest =>
      cases h
      have := Extent.lineComment_le rest
      simp only [List.length_cons]
      omega
  | case5 rest k hk ih =>
      obtain ⟨m, hm, rfl⟩ := Extent.closed_of_shift h
      have hle := ih hm
      obtain ⟨body, behind, rfl, rfl, -⟩ := Extent.of_blockComment? hk
      simp only [List.length_drop, List.length_cons, List.length_append] at hle ⊢
      omega
  | case6 => cases h
  | case7 c rest _ _ _ _ ih =>
      obtain ⟨m, hm, rfl⟩ := Extent.closed_of_shift h
      have := ih hm
      simp only [List.length_cons]
      omega

/-- Characters on one line, with no comment starting among them before `rest`, are read as they
are. -/
structure Plain (kept rest : List Char) : Prop where
  newline_notMem : '\n' ∉ kept
  backslash_notMem : '\\' ∉ kept
  not_hasOpener : ¬ HasOpener (kept ++ rest.take 1)

namespace Plain

variable {c : Char} {kept rest : List Char}

theorem tail (h : Plain (c :: kept) rest) : Plain kept rest :=
  ⟨fun hmem => h.newline_notMem (List.mem_cons_of_mem c hmem),
    fun hmem => h.backslash_notMem (List.mem_cons_of_mem c hmem),
    fun hopener => h.not_hasOpener (hasOpener_cons.2 (.inr hopener))⟩

theorem ne_newline (h : Plain (c :: kept) rest) : c ≠ '\n' := by
  rintro rfl
  exact h.newline_notMem List.mem_cons_self

theorem ne_backslash (h : Plain (c :: kept) rest) : c ≠ '\\' := by
  rintro rfl
  exact h.backslash_notMem List.mem_cons_self

theorem not_startsComment (h : Plain (c :: kept) rest) : ¬ StartsComment (c :: (kept ++ rest)) := by
  intro hstart
  refine h.not_hasOpener (hasOpener_cons.2 (.inl (startsComment_cons.2 ?_)))
  have := startsComment_cons.1 hstart
  cases kept with
  | nil => cases rest <;> exact this
  | cons d kept => exact this

theorem extent_append (h : Plain kept rest) :
    extent (kept ++ rest) = (extent rest).shift kept.length := by
  induction kept with
  | nil => cases hrest : extent rest <;> simp [hrest, Extent.shift]
  | cons c kept ih =>
      rw [List.cons_append, extent_cons h.ne_newline h.ne_backslash h.not_startsComment, ih h.tail,
        Extent.shift_shift, List.length_cons, Nat.add_comm]

theorem flatten_append (h : Plain kept rest) : flatten (kept ++ rest) = kept ++ flatten rest := by
  induction kept with
  | nil => rfl
  | cons c kept ih =>
      rw [List.cons_append, flatten_cons h.ne_backslash h.not_startsComment, ih h.tail,
        List.cons_append]

end Plain

end DirectiveLine

/-! ## The directive on a line -/

/-- The characters from `start` to `stop` are read as one token that says `lexeme`: no other token
and no fault is recorded on them, and reading comes to their end. -/
structure ReadsToken (text : List Char) (start stop : Nat) (lexeme : Lexeme) : Prop where
  token : ∃ t ∈ tokens text, t.toLexeme = lexeme ∧ t.start.offset = start ∧ t.stop = stop
  single : ∀ t ∈ tokens text, t.stop ≤ start ∨ t.start.offset = start ∨ stop ≤ t.start.offset
  faultless : ∀ e ∈ faults text, e.1.offset < start ∨ stop ≤ e.1.offset
  next : Reaches text stop

/-- The characters from `start` to `stop` are read as one directive, spelled `said`. -/
abbrev ReadsDirective (text : List Char) (start stop : Nat) (said : List Char) : Prop :=
  ReadsToken text start stop ⟨.directive, String.ofList said⟩

section Hash

variable {text rest said : List Char} {ps : List Piece} {stop : Nat}

theorem pieces_hash (rest : List Char) : ∃ qs, pieces true ('#' :: rest) =
    ⟨(Piece.directive ('#' :: rest)).1, '#' :: rest.take ((Piece.directive ('#' :: rest)).2 - 1)⟩
      :: qs := by
  have hr : Piece.recognise true '#' ('#' :: rest)
      = ((Piece.directive ('#' :: rest)).1, (Piece.directive ('#' :: rest)).2) := rfl
  rw [pieces_cons hr]
  exact ⟨_, rfl⟩

theorem length_of_extent {n : Nat} (h : DirectiveLine.extent ('#' :: rest) = .closed n) :
    ('#' :: rest.take (n - 1)).length = n := by
  have hle := DirectiveLine.length_le_of_extent h
  obtain ⟨m, -, rfl⟩ := Extent.closed_of_shift ((DirectiveLine.extent_hash rest).symm.trans h)
  rw [List.length_cons] at hle
  rw [List.length_cons, List.length_take]
  omega

/-- A piece lies before another one, is the same, or lies behind it. -/
theorem trichotomy_placed {qs : List Piece} {q : Piece} (h : pieces true text = ps ++ q :: qs)
    {e : Position × Piece} (he : e ∈ placedPieces text) :
    e.1.offset + e.2.raw.length ≤ (ps.flatMap (·.raw)).length ∨
      e = (Position.start.after (ps.flatMap (·.raw)), q) ∨
        (ps.flatMap (·.raw)).length + q.raw.length ≤ e.1.offset := by
  rw [placedPieces, h] at he
  rcases of_mem_placed_append he with ⟨-, hle⟩ | ⟨he, -⟩
  · exact .inl (by simpa [Position.start] using hle)
  · rcases List.mem_cons.1 he with rfl | he
    · exact .inr (.inl rfl)
    · have hle := offset_le_of_mem_placed he
      rw [Position.after_offset, Position.after_offset] at hle
      exact .inr (.inr (by simpa [Position.start] using hle))

theorem mem_placedPieces {qs : List Piece} {q : Piece} (h : pieces true text = ps ++ q :: qs) :
    (Position.start.after (ps.flatMap (·.raw)), q) ∈ placedPieces text := by
  rw [placedPieces, h, placed_append]
  exact List.mem_append_right _ List.mem_cons_self

/-- The faults recorded on a piece are those of the piece. -/
theorem faults_at_piece {qs : List Piece} {q : Piece} (h : pieces true text = ps ++ q :: qs)
    {e : Position × Fault} (he : e ∈ faults text) :
    e.1.offset < (ps.flatMap (·.raw)).length ∨
      Piece.asFault? (Position.start.after (ps.flatMap (·.raw)), q) = some e ∨
        (ps.flatMap (·.raw)).length + q.raw.length ≤ e.1.offset := by
  obtain ⟨⟨p, kind, raw⟩, hmem, hfault⟩ := List.mem_filterMap.1 he
  cases kind with
  | faulty fault place =>
      have hplace := place_lt_of_mem_pieces (mem_pieces_of_mem_placed hmem)
      rcases trichotomy_placed h hmem with hle | heq | hle
      · refine .inl ?_
        cases hfault
        rw [Position.after_offset, List.length_take]
        dsimp only at hle
        omega
      · exact .inr (.inl (heq ▸ hfault))
      · refine .inr (.inr ?_)
        cases hfault
        rw [Position.after_offset]
        dsimp only at hle
        omega
  | _ => cases hfault

/-- A piece that is a token is read as one. -/
theorem readsToken_of_piece {qs : List Piece} {lexeme : Lexeme} {raw : List Char}
    (h : pieces true text = ps ++ ⟨.token lexeme, raw⟩ :: qs) :
    ReadsToken text (ps.flatMap (·.raw)).length ((ps.flatMap (·.raw)).length + raw.length)
      lexeme := by
  have hoffset : (Position.start.after (ps.flatMap (·.raw))).offset =
      (ps.flatMap (·.raw)).length := by simp [Position.start]
  refine ⟨⟨_, List.mem_filterMap.2 ⟨_, mem_placedPieces h, rfl⟩, rfl, hoffset,
    congrArg (· + _) hoffset⟩, ?_, ?_, ?_⟩
  · intro t ht
    obtain ⟨raw', hmem', hstop⟩ := exists_piece_of_mem_tokens ht
    rcases trichotomy_placed h hmem' with hle | heq | hle
    · exact .inl (hstop ▸ hle)
    · exact .inr (.inl ((congrArg (·.1.offset) heq).trans hoffset))
    · exact .inr (.inr hle)
  · intro e he
    rcases faults_at_piece h he with hlt | hfault | hle
    · exact .inl hlt
    · cases hfault
    · exact .inr hle
  · have hsplit : pieces true text = (ps ++ [⟨.token lexeme, raw⟩]) ++ qs := by simp [h]
    simpa using Reaches.of_append hsplit

/-- Behind a fresh start of a line the characters up to `stop` are read as one directive exactly
if the reach of the preprocessor line ends there. -/
theorem readsDirective_iff (h : pieces true text = ps ++ pieces true ('#' :: rest)) :
    ReadsDirective text (ps.flatMap (·.raw)).length stop said ↔
      ∃ n, DirectiveLine.extent ('#' :: rest) = .closed n ∧
        stop = (ps.flatMap (·.raw)).length + n ∧
          Text.trimEnd (DirectiveLine.flatten (('#' :: rest).take n)) = said := by
  obtain ⟨qs, hqs⟩ := pieces_hash rest
  rw [hqs] at h
  constructor
  · rintro ⟨⟨t, ht, hlexeme, hstart, hstop⟩, -, -, -⟩
    obtain ⟨raw, hmem, hend⟩ := exists_piece_of_mem_tokens ht
    have hraw := List.length_pos_iff.2 (raw_ne_nil_of_mem_pieces (mem_pieces_of_mem_placed hmem))
    rcases trichotomy_placed h hmem with hle | heq | hle
    · dsimp only at hle hraw
      omega
    · obtain ⟨-, hpiece⟩ := Prod.mk.inj heq
      obtain ⟨hkind, rfl⟩ := Piece.mk.inj hpiece
      obtain ⟨-, hextent, htext⟩ :=
        Piece.directiveAs_directive _ hkind.symm (congrArg Lexeme.kind hlexeme)
      have hsaid := congrArg Lexeme.text hlexeme
      refine ⟨_, hextent, ?_, ?_⟩
      · rw [← hstop, hend, hstart, length_of_extent hextent]
      · have hspelled := htext.symm.trans hsaid
        exact String.ofList_injective hspelled
    · rw [List.length_cons] at hle
      dsimp only at hle
      omega
  · rintro ⟨n, hn, rfl, rfl⟩
    have hdirective : Piece.directive ('#' :: rest)
        = (.token ⟨.directive, DirectiveLine.spelling (('#' :: rest).take n)⟩, n) := by
      rw [Piece.directive, hn]
    rw [hdirective] at h
    have hread := readsToken_of_piece h
    rwa [length_of_extent hn] at hread

theorem pieces_of_unclosed {place : Nat} (h : pieces true text = ps ++ pieces true ('#' :: rest))
    (hplace : DirectiveLine.extent ('#' :: rest) = .unclosed place) :
    pieces true text = ps ++ [⟨.faulty .unterminatedComment place, '#' :: rest⟩] := by
  have hr : Piece.recognise true '#' ('#' :: rest)
      = (.faulty .unterminatedComment place, rest.length + 1) := by
    show Piece.directive ('#' :: rest) = _
    rw [Piece.directive, hplace]
    simp [Piece.faultyOf]
  rw [h, pieces_cons hr, Nat.add_sub_cancel, List.take_length, List.drop_length, pieces]

/-- Where the last piece is given up on, its fault is recorded and no token follows. -/
theorem faults_of_last {fault : Fault} {place : Nat} {raw : List Char}
    (h : pieces true text = ps ++ [⟨.faulty fault place, raw⟩]) :
    (Position.start.after (ps.flatMap (·.raw) ++ raw.take place), fault) ∈ faults text ∧
      ∀ t ∈ tokens text, t.stop ≤ (ps.flatMap (·.raw)).length := by
  refine ⟨List.mem_filterMap.2 ⟨_, mem_placedPieces h, ?_⟩, fun t ht => ?_⟩
  · rw [Piece.asFault?, Position.after_append]
  · obtain ⟨raw', hmem, hstop⟩ := exists_piece_of_mem_tokens ht
    rw [placedPieces, h] at hmem
    rcases of_mem_placed_append hmem with ⟨-, hle⟩ | ⟨hmem, -⟩
    · rw [hstop]
      simpa [Position.start] using hle
    · -- what is given up on is no token
      have hkind := congrArg (·.2.kind) (List.mem_singleton.1 hmem)
      cases hkind

/-- The piece behind a fresh start of a line takes at least what the reach of the preprocessor line
has passed. -/
theorem not_reaches_of_shift {e : Extent} {k n : Nat}
    (h : pieces true text = ps ++ pieces true ('#' :: rest))
    (hk : DirectiveLine.extent ('#' :: rest) = e.shift k) (hle : k ≤ rest.length + 1)
    (hstart : (ps.flatMap (·.raw)).length < n) (hn : n < (ps.flatMap (·.raw)).length + k) :
    ¬ Reaches text n := by
  -- the piece is no layout, and not shorter than `k`
  obtain ⟨kind, raw, qs, hqs, hkind, hlength⟩ : ∃ kind raw qs,
      pieces true text = ps ++ ⟨kind, raw⟩ :: qs ∧ kind ≠ .layout ∧ k ≤ raw.length := by
    cases e with
    | closed m =>
        obtain ⟨qs, hqs⟩ := pieces_hash rest
        rw [hqs, Piece.directive, hk] at h
        refine ⟨_, _, _, h, nofun, ?_⟩
        have := length_of_extent hk
        exact Nat.le_trans (Nat.le_add_right k m) (Nat.le_of_eq this.symm)
    | unclosed m => exact ⟨_, _, _, pieces_of_unclosed h hk, nofun, hle⟩
  intro hreaches
  rcases hreaches _ (mem_placedPieces hqs) hkind with hend | hend
  · rw [Position.after_offset] at hend
    simp only [Position.start] at hend
    omega
  · rw [Position.after_offset] at hend
    simp only [Position.start] at hend
    omega

end Hash

/-! ## Openers between quotes -/

/-- A preprocessor line of a text that reading comes to at its start: `blanks`, a hash and `line`,
with no joined line end, behind `before` and in front of `after`. -/
structure IsDirectiveLine (before blanks line after : List Char) : Prop where
  starts : before = [] ∨ before.getLast? = some '\n'
  reached : Reaches (before ++ (blanks ++ '#' :: (line ++ after))) before.length
  isLayout_blanks : ∀ c ∈ blanks, Text.isLayout c = true
  newline_notMem : '\n' ∉ line
  backslash_notMem : '\\' ∉ line
  ends : after = [] ∨ after.head? = some '\n'

namespace Text

variable {cs : List Char} {c : Char} {i : Nat}

theorem getElem?_trimEnd (h : cs[i]? = some c) (hc : isBlank c = false) :
    (trimEnd cs)[i]? = some c := by
  obtain ⟨⟨blanks, hblanks, hsplit⟩, -⟩ := exists_blanks_trimEnd cs
  rw [hsplit, List.getElem?_append] at h
  split at h
  · exact h
  · have := hblanks c (List.mem_of_getElem? h)
    rw [hc] at this
    cases this

theorem getElem?_of_trimEnd (h : (trimEnd cs)[i]? = some c) : cs[i]? = some c := by
  obtain ⟨⟨blanks, -, hsplit⟩, -⟩ := exists_blanks_trimEnd cs
  rw [hsplit, List.getElem?_append_left (List.getElem?_eq_some_iff.1 h).1]
  exact h

end Text

theorem Extent.lineComment_of_single {body after : List Char} (hfeed : '\n' ∉ body)
    (hback : '\\' ∉ body) (hends : after = [] ∨ after.head? = some '\n') :
    lineComment (body ++ after) = body.length := by
  induction body with
  | nil =>
      rcases hends with rfl | hhead
      · rfl
      · obtain ⟨more, rfl⟩ := List.head?_eq_some_iff.1 hhead
        rfl
  | cons c body ih =>
      rw [List.mem_cons, not_or] at hfeed hback
      rw [List.cons_append, lineComment, ih hfeed.2 hback.2, List.length_cons, Nat.add_comm]
      · rintro rest rfl
        exact absurd rfl hback.1
      · exact fun h => hfeed.1 h.symm

namespace IsDirectiveLine

variable {before blanks line after kept comment : List Char}

theorem exists_pieces (h : IsDirectiveLine before blanks line after) :
    ∃ ps, ps.flatMap (·.raw) = before ++ blanks ∧
      pieces true (before ++ (blanks ++ '#' :: (line ++ after))) =
        ps ++ pieces true ('#' :: (line ++ after)) := by
  refine pieces_of_hash rfl (h.starts.imp_left fun hnil => ⟨hnil, rfl⟩) h.isLayout_blanks
    (p := .start) fun e he hkind => ?_
  rw [show Position.start.offset = 0 from rfl, Nat.zero_add]
  exact h.reached e he hkind

theorem plain (h : IsDirectiveLine before blanks line after) {c : Char} (rest : List Char)
    (hline : line = kept ++ '/' :: c :: comment) (hkept : ¬ HasOpener (kept ++ ['/'])) :
    DirectiveLine.Plain ('#' :: kept) ('/' :: rest) := by
  subst hline
  refine ⟨fun hmem => ?_, fun hmem => ?_, fun hopener => ?_⟩
  · exact h.newline_notMem
      (List.mem_append_left _ ((List.mem_cons.1 hmem).resolve_left (by decide)))
  · exact h.backslash_notMem
      (List.mem_append_left _ ((List.mem_cons.1 hmem).resolve_left (by decide)))
  · rcases hasOpener_cons.1 hopener with hstart | hopener
    · exact absurd (startsComment_cons.1 hstart).1 (by decide)
    · exact hkept hopener

theorem plain_of_not_hasOpener (h : IsDirectiveLine before blanks line after)
    (hno : ¬ HasOpener line) {rest : List Char} (hrest : rest = [] ∨ rest.head? = some '\n') :
    DirectiveLine.Plain ('#' :: line) rest := by
  refine ⟨fun hmem => ?_, fun hmem => ?_, fun hopener => ?_⟩
  · exact h.newline_notMem ((List.mem_cons.1 hmem).resolve_left (by decide))
  · exact h.backslash_notMem ((List.mem_cons.1 hmem).resolve_left (by decide))
  · rcases hasOpener_cons.1 hopener with hstart | hopener
    · exact absurd (startsComment_cons.1 hstart).1 (by decide)
    · refine hno ?_
      rcases hrest with rfl | hhead
      · exact (List.append_nil line) ▸ hopener
      · obtain ⟨more, rfl⟩ := List.head?_eq_some_iff.1 hhead
        exact hasOpener_of_append_newline hopener

theorem extent_after (h : IsDirectiveLine before blanks line after) :
    DirectiveLine.extent after = .closed 0 := by
  rcases h.ends with rfl | hhead
  · rw [DirectiveLine.extent]
  · obtain ⟨more, rfl⟩ := List.head?_eq_some_iff.1 hhead
    rw [DirectiveLine.extent]

theorem extent_of_not_hasOpener (h : IsDirectiveLine before blanks line after)
    (hno : ¬ HasOpener line) :
    DirectiveLine.extent ('#' :: (line ++ after)) = .closed (1 + line.length) := by
  have hread := (h.plain_of_not_hasOpener hno h.ends).extent_append
  rw [List.cons_append, h.extent_after] at hread
  rw [hread, Extent.shift, List.length_cons, Nat.add_zero, Nat.add_comm]

theorem extent_of_lineComment (h : IsDirectiveLine before blanks line after)
    (hline : line = kept ++ '/' :: '/' :: comment) (hkept : ¬ HasOpener (kept ++ ['/'])) :
    DirectiveLine.extent ('#' :: (line ++ after)) = .closed (1 + line.length) := by
  have hread := (h.plain ('/' :: (comment ++ after)) hline hkept).extent_append
  have hbody : Extent.lineComment (comment ++ after) = comment.length := by
    refine Extent.lineComment_of_single (fun hmem => h.newline_notMem ?_)
      (fun hmem => h.backslash_notMem ?_) h.ends
    · rw [hline]
      exact List.mem_append_right _ (List.mem_cons_of_mem _ (List.mem_cons_of_mem _ hmem))
    · rw [hline]
      exact List.mem_append_right _ (List.mem_cons_of_mem _ (List.mem_cons_of_mem _ hmem))
  rw [DirectiveLine.extent, hbody] at hread
  rw [hline, List.append_assoc, List.cons_append, List.cons_append, ← List.cons_append, hread,
    Extent.shift]
  simp only [List.length_cons, List.length_append]
  congr 1
  omega

theorem extent_of_blockComment (h : IsDirectiveLine before blanks line after)
    (hline : line = kept ++ '/' :: '*' :: comment) (hkept : ¬ HasOpener (kept ++ ['/'])) {n : Nat}
    (hn : Extent.blockComment? (comment ++ after) = some n) :
    DirectiveLine.extent ('#' :: (line ++ after)) =
      (DirectiveLine.extent ((comment ++ after).drop n)).shift (1 + kept.length + 2 + n) := by
  have hread := (h.plain ('*' :: (comment ++ after)) hline hkept).extent_append
  rw [DirectiveLine.extent, hn] at hread
  rw [hline, List.append_assoc, List.cons_append, List.cons_append, ← List.cons_append, hread]
  show Extent.shift _ (Extent.shift _ _) = _
  rw [Extent.shift_shift, List.length_cons]
  congr 1
  omega

theorem extent_of_unclosed (h : IsDirectiveLine before blanks line after)
    (hline : line = kept ++ '/' :: '*' :: comment) (hkept : ¬ HasOpener (kept ++ ['/']))
    (hnone : Extent.blockComment? (comment ++ after) = none) :
    DirectiveLine.extent ('#' :: (line ++ after)) = .unclosed (1 + kept.length) := by
  have hread := (h.plain ('*' :: (comment ++ after)) hline hkept).extent_append
  rw [DirectiveLine.extent, hnone] at hread
  rw [hline, List.append_assoc, List.cons_append, List.cons_append, ← List.cons_append, hread,
    Nat.add_comm 1 kept.length]
  rfl

/-- In the place of an opener a directive has no slash. -/
theorem getElem?_flatten (h : IsDirectiveLine before blanks line after) {c : Char}
    (hline : line = kept ++ '/' :: c :: comment) (hc : c = '/' ∨ c = '*')
    (hkept : ¬ HasOpener (kept ++ ['/'])) :
    (DirectiveLine.flatten ('#' :: line))[1 + kept.length]? ≠ some '/' := by
  have hread := (h.plain (c :: comment) hline hkept).flatten_append
  rw [hline, ← List.cons_append, hread, List.getElem?_append_right (by simp [Nat.add_comm]),
    List.length_cons, Nat.add_comm kept.length 1, Nat.sub_self]
  rcases hc with rfl | rfl
  · rw [DirectiveLine.flatten]
    simp
  · rw [DirectiveLine.flatten]
    cases Extent.blockComment? comment with
    | some n => simp
    | none => simp

/-- The line is read as one directive if the reach of the preprocessor line is its end. -/
theorem readsDirective_iff (h : IsDirectiveLine before blanks line after) {said : List Char} :
    ReadsDirective (before ++ (blanks ++ '#' :: (line ++ after))) (before ++ blanks).length
        ((before ++ blanks).length + (1 + line.length)) said ↔
      DirectiveLine.extent ('#' :: (line ++ after)) = .closed (1 + line.length) ∧
        Text.trimEnd (DirectiveLine.flatten ('#' :: line)) = said := by
  obtain ⟨ps, hps, hpieces⟩ := h.exists_pieces
  rw [← hps, CxxFloor.readsDirective_iff hpieces]
  have htake : ('#' :: (line ++ after)).take (1 + line.length) = '#' :: line := by
    rw [Nat.add_comm, List.take_succ_cons, List.take_left]
  constructor
  · rintro ⟨n, hn, hstop, hsaid⟩
    obtain rfl := Nat.add_left_cancel hstop
    exact ⟨hn, htake ▸ hsaid⟩
  · rintro ⟨hn, hsaid⟩
    exact ⟨_, hn, rfl, htake.symm ▸ hsaid⟩

/-- A line without an opener, and no other, is read as it stands. -/
theorem readsDirective_iff_not_hasOpener (h : IsDirectiveLine before blanks line after) :
    ReadsDirective (before ++ (blanks ++ '#' :: (line ++ after))) (before ++ blanks).length
        ((before ++ blanks).length + (1 + line.length)) (Text.trimEnd ('#' :: line)) ↔
      ¬ HasOpener line := by
  rw [h.readsDirective_iff]
  constructor
  · rintro ⟨-, hsaid⟩ hopener
    obtain ⟨kept, c, comment, hline, hc, hkept⟩ := hopener.exists_first
    -- the slash of the opener would be kept
    have hslash : ('#' :: line)[1 + kept.length]? = some '/' := by
      rw [hline, Nat.add_comm, List.getElem?_cons_succ, List.getElem?_append_right (Nat.le_refl _),
        Nat.sub_self]
      rfl
    have hkeeps := Text.getElem?_trimEnd hslash (by decide)
    rw [← hsaid] at hkeeps
    exact h.getElem?_flatten hline hc hkept (Text.getElem?_of_trimEnd hkeeps)
  · intro hno
    have hsaid := (h.plain_of_not_hasOpener hno (.inl rfl)).flatten_append
    rw [DirectiveLine.flatten, List.append_nil] at hsaid
    exact ⟨h.extent_of_not_hasOpener hno, by rw [hsaid]⟩

/-- In front of a line comment the line is read as it stands. -/
theorem readsDirective_of_lineComment (h : IsDirectiveLine before blanks line after)
    (hline : line = kept ++ '/' :: '/' :: comment) (hkept : ¬ HasOpener (kept ++ ['/'])) :
    ReadsDirective (before ++ (blanks ++ '#' :: (line ++ after))) (before ++ blanks).length
      ((before ++ blanks).length + (1 + line.length)) (Text.trimEnd ('#' :: kept)) := by
  refine h.readsDirective_iff.2 ⟨h.extent_of_lineComment hline hkept, ?_⟩
  have hsaid := (h.plain ('/' :: comment) hline hkept).flatten_append
  rw [hline, ← List.cons_append, hsaid, DirectiveLine.flatten, List.append_nil]

/-- A block comment is passed to its end. -/
theorem not_reaches_of_blockComment (h : IsDirectiveLine before blanks line after)
    (hline : line = kept ++ '/' :: '*' :: comment) (hkept : ¬ HasOpener (kept ++ ['/']))
    {body behind : List Char} (hbody : comment ++ after = body ++ '*' :: '/' :: behind)
    (hfirst : ¬ ['*', '/'] <:+: body) {n : Nat} (hlt : (before ++ blanks).length < n)
    (hn : n < (before ++ blanks).length + (1 + kept.length + 2 + (body.length + 2))) :
    ¬ Reaches (before ++ (blanks ++ '#' :: (line ++ after))) n := by
  obtain ⟨ps, hps, hpieces⟩ := h.exists_pieces
  rw [← hps] at hlt hn
  have hclosed := Extent.blockComment?_of_not_infix hfirst behind
  rw [← hbody] at hclosed
  refine not_reaches_of_shift hpieces (h.extent_of_blockComment hline hkept hclosed) ?_ hlt hn
  have hlength := congrArg List.length hbody
  simp only [hline, List.length_append, List.length_cons] at hlength ⊢
  omega

/-- A block comment that is never closed takes the rest of the text along. -/
theorem faults_of_unclosed (h : IsDirectiveLine before blanks line after)
    (hline : line = kept ++ '/' :: '*' :: comment) (hkept : ¬ HasOpener (kept ++ ['/']))
    (hopen : ¬ ['*', '/'] <:+: comment ++ after) :
    (Position.start.after (before ++ blanks ++ '#' :: kept), .unterminatedComment)
        ∈ faults (before ++ (blanks ++ '#' :: (line ++ after))) ∧
      ∀ t ∈ tokens (before ++ (blanks ++ '#' :: (line ++ after))),
        t.stop ≤ (before ++ blanks).length := by
  obtain ⟨ps, hps, hpieces⟩ := h.exists_pieces
  have hnone : Extent.blockComment? (comment ++ after) = none := by
    cases hclosed : Extent.blockComment? (comment ++ after) with
    | none => rfl
    | some n =>
        obtain ⟨body, behind, hbody, -, -⟩ := Extent.of_blockComment? hclosed
        exact absurd ⟨body, behind, by rw [hbody]; simp⟩ hopen
  have hfaults := faults_of_last
    (pieces_of_unclosed hpieces (h.extent_of_unclosed hline hkept hnone))
  have htake : ('#' :: (line ++ after)).take (1 + kept.length) = '#' :: kept := by
    rw [hline, Nat.add_comm, List.take_succ_cons, List.append_assoc, List.take_left]
  rwa [hps, htake] at hfaults

end IsDirectiveLine

/-- On a preprocessor line a comment starts at the first `//` or `/*`, between two quotes as
anywhere else.  The line is one directive, spelled as it stands but for the blanks at its end,
exactly if it has no opener at all.  If the first one is `//`, the directive is what stands before
it.  If it is `/*`, reading comes to no place before the next `*/`, on whatever line this stands;
and if there is none, a fault is recorded at the opener and no further token is read. -/
theorem directive_ignores_quotes {before blanks line after : List Char}
    (h : IsDirectiveLine before blanks line after) :
    let text := before ++ (blanks ++ '#' :: (line ++ after))
    let start := (before ++ blanks).length
    (ReadsDirective text start (start + (1 + line.length)) (Text.trimEnd ('#' :: line)) ↔
      ¬ HasOpener line) ∧
    ∀ kept comment, ¬ HasOpener (kept ++ ['/']) →
      (line = kept ++ '/' :: '/' :: comment →
        ReadsDirective text start (start + (1 + line.length)) (Text.trimEnd ('#' :: kept))) ∧
      (line = kept ++ '/' :: '*' :: comment →
        (∀ body behind, comment ++ after = body ++ '*' :: '/' :: behind →
          ¬ ['*', '/'] <:+: body → ∀ n, start < n →
            n < start + (1 + kept.length + 2 + (body.length + 2)) → ¬ Reaches text n) ∧
        (¬ ['*', '/'] <:+: comment ++ after →
          (Position.start.after (before ++ blanks ++ '#' :: kept), .unterminatedComment)
              ∈ faults text ∧
            ∀ t ∈ tokens text, t.stop ≤ start)) := by
  refine ⟨h.readsDirective_iff_not_hasOpener, fun kept comment hkept =>
    ⟨fun hline => h.readsDirective_of_lineComment hline hkept, fun hline => ⟨?_, ?_⟩⟩⟩
  · intro body behind hbody hfirst n hlt hn
    exact h.not_reaches_of_blockComment hline hkept hbody hfirst hlt hn
  · exact h.faults_of_unclosed hline hkept

/-- A literal with a line comment opener, on the second line of a text. -/
theorem directive_ignores_quotes_address :
    ∃ before blanks line after : List Char, before = "int a;\n".toList ∧ blanks = " ".toList ∧
      line = "define URL \"http://x\"".toList ∧ after = "\nint x;".toList ∧
      IsDirectiveLine before blanks line after ∧
      ReadsDirective (before ++ (blanks ++ '#' :: (line ++ after))) (before ++ blanks).length
        ((before ++ blanks).length + (1 + line.length))
        (Text.trimEnd ('#' :: "define URL \"http:".toList)) := by
  have h : IsDirectiveLine "int a;\n".toList " ".toList "define URL \"http://x\"".toList
      "\nint x;".toList :=
    ⟨by decide +kernel, by unfold Reaches; decide +kernel, List.all_eq_true.1 (by decide +kernel),
      by decide +kernel, by decide +kernel, by decide +kernel⟩
  have hkept : ¬ HasOpener ("define URL \"http:".toList ++ ['/']) := by decide +kernel
  exact ⟨_, _, _, _, rfl, rfl, rfl, rfl, h,
    ((directive_ignores_quotes h).2 _ "x\"".toList hkept).1 (by decide +kernel)⟩

/-- A pattern between quotes is read as the start of a comment, and takes the rest of the text
along; an address between quotes is cut off. -/
theorem quoted_openers_start_comments :
    (∃ line after : List Char, line = "define GLOB \"src/*.cpp\"".toList ∧
      after = "\nint x;".toList ∧ IsDirectiveLine [] [] line after ∧
      ¬ ReadsDirective ('#' :: (line ++ after)) 0 (1 + line.length) (Text.trimEnd ('#' :: line)) ∧
      tokens ('#' :: (line ++ after)) = [] ∧
      tokenDiagnostics ('#' :: (line ++ after)) = [⟨1, 18, "Unterminated block comment"⟩]) ∧
    ∃ line after : List Char, line = "define URL \"http://x\"".toList ∧
      after = "\nint x;".toList ∧ IsDirectiveLine [] [] line after ∧
      ¬ ReadsDirective ('#' :: (line ++ after)) 0 (1 + line.length) (Text.trimEnd ('#' :: line)) ∧
      (tokens ('#' :: (line ++ after))).head? =
        some ⟨⟨.directive, "#define URL \"http:"⟩, ⟨0, 1, 1⟩, 22⟩ := by
  have hreached : ∀ text, Reaches text 0 := fun text e _ _ => .inr (Nat.zero_le _)
  have hline : ∀ line after, '\n' ∉ line → '\\' ∉ line → after.head? = some '\n' →
      IsDirectiveLine [] [] line after := fun line after hfeed hback hends =>
    ⟨.inl rfl, hreached _, by simp, hfeed, hback, .inr hends⟩
  have hread : ∀ line after, IsDirectiveLine [] [] line after → HasOpener line →
      ¬ ReadsDirective ('#' :: (line ++ after)) 0 (1 + line.length) (Text.trimEnd ('#' :: line)) :=
    fun line after h hopener hread => h.readsDirective_iff_not_hasOpener.1
      (by simpa using hread) hopener
  have hglob := hline "define GLOB \"src/*.cpp\"".toList "\nint x;".toList (by decide +kernel)
    (by decide +kernel) (by decide +kernel)
  have hurl := hline "define URL \"http://x\"".toList "\nint x;".toList (by decide +kernel)
    (by decide +kernel) (by decide +kernel)
  exact ⟨⟨_, _, rfl, rfl, hglob, hread _ _ hglob (by decide +kernel), by decide +kernel,
    by decide +kernel⟩, _, _, rfl, rfl, hurl, hread _ _ hurl (by decide +kernel), by decide +kernel⟩

end CxxFloor
