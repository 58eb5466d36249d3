/-
# What a token says and where

A token that is no preprocessor line reads like the text from its start to its
end, and its line and its column are those of its start, counted in the text
from the line feeds before it.  This holds however many line feeds stand in the
tokens, the comments and the stretches given up on before it, since places are
not carried through the reading.

A preprocessor line does not read like the text.  What it says instead is
described without reading it (`DirectiveLine.Says`): a joined line end and a
block comment are one space each, a line comment is nothing, and any other
character is itself.  The directive is that text up to its last character that
is no blank (`DirectiveLine.Spells`).
-/
import CxxFloor.Proofs.Text.Lines
import CxxFloor.Proofs.Token.Places
import CxxFloor.Proofs.Token.Trivia

namespace CxxFloor

theorem Extent.blockComment?_of_not_infix {body : List Char} (h : ¬ ['*', '/'] <:+: body)
    (after : List Char) : blockComment? (body ++ '*' :: '/' :: after) = some (body.length + 2) := by
  induction body with
  | nil => rfl
  | cons c body ih =>
      obtain ⟨hfirst, hrest⟩ := not_or.1 (mt List.infix_cons_iff.2 h)
      rw [List.cons_append, blockComment?, ih hrest, List.length_cons, Option.map_some]
      · congr 1
        omega
      · rintro behind rfl heq
        cases body with
        | nil => cases heq
        | cons d body =>
            obtain ⟨rfl, -⟩ := List.cons_eq_cons.1 heq
            exact hfirst ⟨body, rfl⟩

/-! ## Preprocessor lines -/

namespace DirectiveLine

/-- The preprocessor line `cs`, with `after` behind it, says `said`. -/
inductive Says (after : List Char) : List Char → List Char → Prop
  | nil (hends : after = [] ∨ after.head? = some '\n') : Says after [] []
  | lineComment {body : List Char} (hbody : EndsLine body after) :
      Says after ('/' :: '/' :: body) []
  | splice {cs said : List Char} (h : Says after cs said) :
      Says after ('\\' :: '\n' :: cs) (' ' :: said)
  | blockComment {body cs said : List Char} (hbody : ¬ ['*', '/'] <:+: body)
      (h : Says after cs said) : Says after ('/' :: '*' :: (body ++ '*' :: '/' :: cs)) (' ' :: said)
  | char {c : Char} {cs said : List Char} (hfeed : c ≠ '\n')
      (hsplice : c = '\\' → (cs ++ after).head? ≠ some '\n')
      (hline : c = '/' → (cs ++ after).head? ≠ some '/')
      (hblock : c = '/' → (cs ++ after).head? ≠ some '*') (h : Says after cs said) :
      Says after (c :: cs) (c :: said)

namespace Says

variable {after cs said : List Char}

theorem ends (h : Says after cs said) : after = [] ∨ after.head? = some '\n' := by
  induction h with
  | nil hends => exact hends
  | lineComment hbody => exact hbody.ends.imp_right And.left
  | splice _ ih => exact ih
  | blockComment _ _ ih => exact ih
  | char _ _ _ _ _ ih => exact ih

theorem newline_notMem (h : Says after cs said) : '\n' ∉ said := by
  induction h with
  | nil => simp
  | lineComment => simp
  | splice _ ih => simp [ih]
  | blockComment _ _ ih => simp [ih]
  | char hfeed _ _ _ _ ih => simp [ih, Ne.symm hfeed]

theorem head?_hash (h : Says after ('#' :: cs) said) : said.head? = some '#' := by
  cases h
  rfl

/-- A preprocessor line says one thing only, which is its text flattened. -/
theorem flatten_eq (h : Says after cs said) : flatten cs = said := by
  induction h with
  | nil => rw [flatten]
  | lineComment => rw [flatten]
  | splice _ ih => rw [flatten, ih]
  | @blockComment body cs said hbody _ ih =>
      have hdrop : (body ++ '*' :: '/' :: cs).drop (body.length + 2) = cs := by
        rw [List.drop_length_add_append]
        rfl
      rw [flatten, Extent.blockComment?_of_not_infix hbody]
      show ' ' :: flatten ((body ++ '*' :: '/' :: cs).drop (body.length + 2)) = _
      rw [hdrop, ih]
  | char _ hsplice hline hblock _ ih =>
      rw [flatten, ih]
      · rintro rest rfl rfl
        exact hsplice rfl rfl
      · rintro rest rfl rfl
        exact hline rfl rfl
      · rintro rest rfl rfl
        exact hblock rfl rfl

end Says

theorem exists_said_of_closed {cs : List Char} {n : Nat} (h : extent cs = .closed n) :
    ∃ said, Says (cs.drop n) (cs.take n) said := by
  fun_induction extent cs generalizing n with
  | case1 =>
      cases h
      exact ⟨[], .nil (.inl rfl)⟩
  | case2 =>
      cases h
      exact ⟨[], .nil (.inr rfl)⟩
  | case3 rest ih =>
      obtain ⟨m, hm, rfl⟩ := Extent.closed_of_shift h
      obtain ⟨said, hsaid⟩ := ih hm
      rw [Nat.add_comm]
      exact ⟨_, .splice hsaid⟩
  | case4 rest =>
      cases h
      rw [Nat.add_comm]
      exact ⟨[], .lineComment (Extent.endsLine_lineComment rest)⟩
  | case5 rest k hk ih =>
      obtain ⟨m, hm, rfl⟩ := Extent.closed_of_shift h
      obtain ⟨said, hsaid⟩ := ih hm
      obtain ⟨body, behind, rfl, rfl, hbody⟩ := Extent.of_blockComment? hk
      have hdrop : (body ++ '*' :: '/' :: behind).drop (body.length + 2) = behind := by
        rw [List.drop_length_add_append]
        rfl
      rw [hdrop] at hsaid
      have htake : ('/' :: '*' :: (body ++ '*' :: '/' :: behind)).take (2 + (body.length + 2) + m)
          = '/' :: '*' :: (body ++ '*' :: '/' :: behind.take m) := by
        rw [show 2 + (body.length + 2) + m = body.length + (m + 2) + 2 by omega,
          List.take_succ_cons, List.take_succ_cons, List.take_length_add_append]
        rfl
      have hdrop' : ('/' :: '*' :: (body ++ '*' :: '/' :: behind)).drop (2 + (body.length + 2) + m)
          = behind.drop m := by
        rw [show 2 + (body.length + 2) + m = body.length + (m + 2) + 2 by omega,
          List.drop_succ_cons, List.drop_succ_cons, List.drop_length_add_append]
        rfl
      rw [htake, hdrop']
      exact ⟨_, .blockComment hbody hsaid⟩
  | case6 => cases h
  | case7 c rest hfeed hsplice hline hblock ih =>
      obtain ⟨m, hm, rfl⟩ := Extent.closed_of_shift h
      obtain ⟨said, hsaid⟩ := ih hm
      rw [Nat.add_comm, List.take_succ_cons, List.drop_succ_cons]
      have hnext : ∀ d, (∀ ds, rest = d :: ds → False) →
          (rest.take m ++ rest.drop m).head? ≠ some d := by
        intro d hd hhead
        rw [List.take_append_drop] at hhead
        obtain ⟨ds, hds⟩ := List.head?_eq_some_iff.1 hhead
        exact hd ds hds
      exact ⟨_, .char hfeed (fun hc => hnext _ fun ds => hsplice ds hc)
        (fun hc => hnext _ fun ds => hline ds hc) (fun hc => hnext _ fun ds => hblock ds hc) hsaid⟩

theorem extent_hash (rest : List Char) : extent ('#' :: rest) = (extent rest).shift 1 := by
  rw [extent] <;> simp

/-- The preprocessor line `raw`, with `after` behind it, has the directive `s`: what the line says
without the blanks at the end. -/
structure Spells (after raw s : List Char) : Prop where
  head? : s.head? = some '#'
  newline_notMem : '\n' ∉ s
  trimmed : ∀ c, s.getLast? = some c → Text.isBlank c = false
  said : ∃ blanks, (∀ c ∈ blanks, Text.isBlank c = true) ∧ Says after raw (s ++ blanks)

end DirectiveLine

namespace Text

theorem exists_blanks_trimEnd (cs : List Char) :
    (∃ blanks, (∀ c ∈ blanks, isBlank c = true) ∧ cs = trimEnd cs ++ blanks) ∧
      ∀ c, (trimEnd cs).getLast? = some c → isBlank c = false := by
  unfold trimEnd
  constructor
  · refine ⟨(cs.reverse.takeWhile isBlank).reverse, fun c hc => ?_, ?_⟩
    · exact List.all_eq_true.1 List.all_takeWhile c (List.mem_reverse.1 hc)
    · rw [← List.reverse_append, List.takeWhile_append_dropWhile, List.reverse_reverse]
  · intro c hc
    rw [List.getLast?_reverse] at hc
    have hhead := List.head?_dropWhile_not isBlank cs.reverse
    rw [hc] at hhead
    simpa using hhead

end Text

theorem DirectiveLine.spells_of_closed {cs : List Char} {n : Nat} (h : extent cs = .closed n)
    (hhash : (cs.take n).head? = some '#') :
    Spells (cs.drop n) (cs.take n) (spelling (cs.take n)).toList := by
  obtain ⟨said, hsaid⟩ := exists_said_of_closed h
  obtain ⟨⟨blanks, hblanks, hsplit⟩, htrimmed⟩ := Text.exists_blanks_trimEnd said
  rw [spelling, String.toList_ofList, hsaid.flatten_eq]
  generalize Text.trimEnd said = s at hsplit htrimmed
  subst hsplit
  refine ⟨?_, fun hmem => hsaid.newline_notMem (List.mem_append_left _ hmem), htrimmed,
    blanks, hblanks, hsaid⟩
  obtain ⟨line, hline⟩ := List.head?_eq_some_iff.1 hhash
  rw [hline] at hsaid
  have hhead := hsaid.head?_hash
  cases s with
  | cons c s => exact hhead
  | nil =>
      -- all of the line would be blank
      have hblank := hblanks '#' (List.mem_of_head? hhead)
      exact absurd hblank (by decide)

/-! ## Recognised directives -/

namespace Piece

/-- A recognised directive is the preprocessor line the text starts with. -/
def DirectiveAs (cs : List Char) (r : PieceKind × Nat) : Prop :=
  ∀ lexeme, r.1 = .token lexeme → lexeme.kind = .directive →
    cs.head? = some '#' ∧ DirectiveLine.extent cs = .closed r.2 ∧
      lexeme.text = DirectiveLine.spelling (cs.take r.2)

theorem directiveAs_of_kind_ne {kind : TokenKind} {cs ds : List Char} {n : Nat}
    (h : kind ≠ .directive) : DirectiveAs cs (tokenOf kind ds n) := by
  intro lexeme hl hkind
  cases hl
  exact absurd hkind h

theorem directiveAs_faultyOf {fault : Fault} {place read : Nat} {cs ds : List Char} :
    DirectiveAs cs (faultyOf fault place read ds) := by
  intro lexeme hl
  cases hl

theorem directiveAs_directive {rest : List Char} :
    DirectiveAs ('#' :: rest) (directive ('#' :: rest)) := by
  unfold directive
  split
  next n hn =>
    intro lexeme hl _
    cases hl
    exact ⟨rfl, hn, rfl⟩
  next => exact directiveAs_faultyOf

theorem directiveAs_quotation (before : Nat) (quote : Char) (cs : List Char) :
    DirectiveAs cs (quotation before quote cs) := by
  unfold quotation
  split
  · refine directiveAs_of_kind_ne ?_
    split <;> decide
  · exact directiveAs_faultyOf

theorem directiveAs_prefixed (p cs : List Char) : DirectiveAs cs (prefixed p cs) := by
  unfold prefixed rawString
  dsimp only
  repeat' split
  all_goals first
    | exact directiveAs_quotation _ _ _
    | exact directiveAs_of_kind_ne (by decide)
    | exact directiveAs_faultyOf

theorem directiveAs_punctuator (c : Char) (cs : List Char) : DirectiveAs cs (punctuator c cs) := by
  unfold punctuator
  repeat' split
  all_goals first
    | exact directiveAs_of_kind_ne (by decide)
    | exact directiveAs_faultyOf

theorem directiveAs_token (fresh : Bool) (c : Char) (rest : List Char) :
    DirectiveAs (c :: rest) (token fresh c (c :: rest)) := by
  unfold token
  split
  next hhash =>
    obtain rfl : c = '#' := by simpa using (Bool.and_eq_true_iff.1 hhash).1
    exact directiveAs_directive
  split
  · exact directiveAs_prefixed _ _
  split
  · exact directiveAs_of_kind_ne (by decide)
  split
  · exact directiveAs_of_kind_ne (by decide)
  split
  · exact directiveAs_quotation _ _ _
  · exact directiveAs_punctuator _ _

theorem ne_token_of_trivia? {cs : List Char} {r : PieceKind × Nat} (h : trivia? cs = some r)
    (lexeme : Lexeme) : r.1 ≠ .token lexeme := by
  intro hl
  unfold trivia? at h
  repeat' split at h
  all_goals first
    | (cases h; cases hl)
    | cases h

theorem directiveAs_recognise (fresh : Bool) (c : Char) (rest : List Char) :
    DirectiveAs (c :: rest) (recognise fresh c (c :: rest)) := by
  unfold recognise
  cases h : trivia? (c :: rest) with
  | none => exact directiveAs_token fresh c rest
  | some r => exact fun lexeme hl => absurd hl (ne_token_of_trivia? h lexeme)

theorem spells_of_recognise {fresh : Bool} {c : Char} {rest : List Char} {lexeme : Lexeme} {n : Nat}
    (h : recognise fresh c (c :: rest) = (.token lexeme, n)) (hkind : lexeme.kind = .directive) :
    DirectiveLine.Spells (rest.drop (n - 1)) (c :: rest.take (n - 1)) lexeme.text.toList := by
  have hdirective := directiveAs_recognise fresh c rest lexeme (congrArg Prod.fst h) hkind
  rw [h] at hdirective
  obtain ⟨hhash, hextent, htext⟩ := hdirective
  obtain rfl : c = '#' := Option.some.inj hhash
  -- the hash itself belongs to the line
  obtain ⟨m, -, hn⟩ := Extent.closed_of_shift ((DirectiveLine.extent_hash rest).symm.trans hextent)
  obtain rfl : n = m + 1 := hn.trans (Nat.add_comm 1 m)
  rw [htext]
  exact DirectiveLine.spells_of_closed hextent rfl

end Piece

/-- A directive among the pieces of a text is that of the preprocessor line at its place. -/
theorem spells_of_suffix_pieces {fresh : Bool} {cs : List Char} {behind : List Piece}
    {lexeme : Lexeme} {raw : List Char}
    (h : ⟨.token lexeme, raw⟩ :: behind <:+ pieces fresh cs) (hkind : lexeme.kind = .directive) :
    DirectiveLine.Spells (behind.flatMap (·.raw)) raw lexeme.text.toList := by
  fun_induction pieces fresh cs with
  | case1 => simp at h
  | case2 fresh c rest kind n hr piece ih =>
      rcases List.suffix_cons_iff.1 h with heq | h
      · obtain ⟨hpiece, rfl⟩ := List.cons_eq_cons.1 heq
        obtain ⟨rfl, rfl⟩ : kind = .token lexeme ∧ raw = c :: rest.take (n - 1) := by
          simpa [piece, eq_comm] using hpiece
        rw [flatMap_raw_pieces]
        exact Piece.spells_of_recognise hr hkind
      · exact ih h

/-! ## Tokens -/

/-- The token of the text is where it says, and says what is there. -/
structure Token.Faithful (text : List Char) (t : Token) : Prop where
  stop_le : t.stop ≤ text.length
  line : t.start.line = 1 + (text.take t.start.offset).count '\n'
  column : ∃ lines line, text.take t.start.offset = lines ++ line ∧ '\n' ∉ line ∧
    (lines = [] ∨ lines.getLast? = some '\n') ∧ t.start.column = t.start.offset - lines.length + 1
  verbatim : t.kind ≠ .directive → t.text = Text.slice text t.start.offset t.stop
  directive : t.kind = .directive → DirectiveLine.Spells (text.drop t.stop)
    (Text.slice text t.start.offset t.stop).toList t.text.toList

/-- Every token of a text stands at the line and the column that its offset has in the text, and
unless it is a preprocessor line it is spelled as the text reads from its start to its end.  A
preprocessor line starts with a hash, has no line end and no blank at its end, and is what is left
of its text with every joined line end and every block comment as a space, without a line comment
and without the blanks at the end. -/
theorem tokens_faithful {text : List Char} {t : Token} (h : t ∈ tokens text) : t.Faithful text := by
  obtain ⟨raw, hmem, hstop⟩ := exists_piece_of_mem_tokens h
  obtain ⟨before, behind, hpieces, hplace⟩ := split_of_mem_placed hmem
  dsimp only at hpieces hplace
  have hsuffix : ⟨.token t.toLexeme, raw⟩ :: behind <:+ pieces true text := ⟨before, hpieces.symm⟩
  have htext : text = before.flatMap (·.raw) ++ (raw ++ behind.flatMap (·.raw)) := by
    rw [← flatMap_raw_pieces true text, hpieces, List.flatMap_append, List.flatMap_cons]
  generalize before.flatMap (·.raw) = passed at hplace htext
  have hoffset : t.start.offset = passed.length := by
    rw [hplace, Position.after_offset]
    exact Nat.zero_add _
  have htake : text.take t.start.offset = passed := by
    rw [hoffset, htext, List.take_left]
  have hdrop : text.drop t.stop = behind.flatMap (·.raw) := by
    rw [hstop, hoffset, htext, ← List.append_assoc, ← List.length_append, List.drop_left]
  have hslice : Text.slice text t.start.offset t.stop = String.ofList raw := by
    rw [Text.slice, hstop, Nat.add_sub_cancel_left, hoffset, htext, List.drop_left, List.take_left]
  refine ⟨stop_le_length h, ?_, ?_, fun hkind => (slice_token h hkind).symm, fun hkind => ?_⟩
  · rw [htake, hplace, Position.after_line]
    rfl
  · obtain ⟨lines, line, hlines, hline, hends, hlength⟩ := Text.exists_last_line passed
    refine ⟨lines, line, htake.trans hlines, hline, hends, ?_⟩
    have hcolumn : t.start.column = 1 + line.length := by
      rw [hplace, Position.after_eq_placeAt, hlength, Text.placeAt, Text.columnAt, List.take_length]
    have := congrArg List.length hlines
    rw [List.length_append] at this
    omega
  · rw [hslice, hdrop, String.toList_ofList]
    exact spells_of_suffix_pieces hsuffix hkind

/-- A preprocessor line with both kinds of comment, behind a string of two lines. -/
theorem tokens_faithful_directive :
    (⟨⟨.directive, "#if  X"⟩, ⟨10, 3, 2⟩, 25⟩ : Token)
        ∈ tokens "a \"\\\n\" b\n #if/* */ X // y\n c".toList ∧
      (⟨⟨.directive, "#if  X"⟩, ⟨10, 3, 2⟩, 25⟩ : Token).Faithful
        "a \"\\\n\" b\n #if/* */ X // y\n c".toList := by
  have hmem : (⟨⟨.directive, "#if  X"⟩, ⟨10, 3, 2⟩, 25⟩ : Token)
      ∈ tokens "a \"\\\n\" b\n #if/* */ X // y\n c".toList := by
    decide +kernel
  exact ⟨hmem, tokens_faithful hmem⟩

end CxxFloor
