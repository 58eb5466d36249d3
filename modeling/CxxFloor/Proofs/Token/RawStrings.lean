/-
# Raw strings

A raw string ends at the first `)delimiter"` behind its parenthesis.  No other
end can be found before the one that is meant: an earlier occurrence would lie
in the body, or reach into the terminator, and then the parenthesis that the
terminator starts with would stand in the delimiter or be the quote
(`Extent.firstOccurrence?_of_not_infix`).  So quotes, line ends, comment openers
and shorter terminators in the body are read like any other characters.

A delimiter of more than `Extent.maxDelimiter` characters is given up on, and
reading goes on at the end of the line.  That bound is one more than the
sixteen characters a delimiter may have (`raw_string_with_long_delimiter`).
-/
import CxxFloor.Proofs.Token.DirectiveLines
import CxxFloor.Proofs.Token.Separated
import CxxFloor.Proofs.Text.Lines

namespace CxxFloor

/-! ## Where the terminator is found -/

namespace Extent

/-- What starts with a character that does not recur in it does not start in front of itself,
unless it ends there as well. -/
theorem not_prefix_of_not_infix {c : Char} {pattern before : List Char} (hc : c ∉ pattern)
    (hne : before ≠ []) (hbefore : ¬ c :: pattern <:+: before) (more : List Char) :
    ¬ c :: pattern <+: before ++ (c :: pattern ++ more) := by
  intro hprefix
  rcases Nat.le_total (c :: pattern).length before.length with hle | hle
  · have hinside := List.prefix_of_prefix_length_le hprefix (List.prefix_append before _) hle
    exact hbefore hinside.isInfix
  · -- the pattern reaches into itself, so its first character is one of the others
    have hover := List.prefix_of_prefix_length_le (List.prefix_append before _) hprefix hle
    obtain ⟨s, hs⟩ := hover
    rw [← hs] at hprefix
    have hagain : s <+: c :: pattern ++ more := hs ▸ (List.prefix_append_right_inj _).1 hprefix
    cases s with
    | nil => exact hbefore (hs ▸ (List.append_nil before).symm ▸ List.infix_rfl)
    | cons d s =>
        obtain ⟨rfl, -⟩ := List.cons_prefix_cons.1 hagain
        obtain ⟨b, before, rfl⟩ := List.exists_cons_of_ne_nil hne
        obtain ⟨-, rfl⟩ := List.cons_eq_cons.1 hs
        exact hc (List.mem_append_right before List.mem_cons_self)

/-- What starts with a character that does not recur in it is found behind whatever it does not
stand in. -/
theorem firstOccurrence?_of_not_infix {c : Char} {pattern body : List Char} (hc : c ∉ pattern)
    (hbody : ¬ c :: pattern <:+: body) (more : List Char) :
    firstOccurrence? (c :: pattern) (body ++ (c :: pattern ++ more)) = some body.length := by
  induction body with
  | nil =>
      have hprefix : (c :: pattern).isPrefixOf (c :: (pattern ++ more)) = true :=
        List.isPrefixOf_iff_prefix.2 (List.prefix_append (c :: pattern) more)
      rw [List.nil_append, List.cons_append, firstOccurrence?, if_pos hprefix]
      rfl
  | cons b body ih =>
      have hprefix := not_prefix_of_not_infix hc (List.cons_ne_nil b body) hbody more
      rw [List.cons_append] at hprefix ⊢
      rw [firstOccurrence?, if_neg (mt List.isPrefixOf_iff_prefix.1 hprefix),
        ih fun hinfix => hbody (List.infix_cons hinfix), Option.map_some, List.length_cons,
        Nat.add_comm]

end Extent

/-! ## Raw strings of any delimiter -/

/-- The raw string behind an encoding prefix with a delimiter around its body. -/
def rawLiteral (p d body : List Char) : List Char :=
  p ++ '"' :: (d ++ '(' :: (body ++ Extent.rawTerminator d))

namespace Piece

variable {p d body : List Char}

theorem recognise_raw (hp : p ∈ encodingPrefixes) (hraw : 'R' ∈ p) (inside : List Char) :
    ∃ c rest, p ++ '"' :: inside = c :: rest ∧ Text.isLayout c = false ∧
      ∀ fresh, recognise fresh c (c :: rest) = rawString p.length (c :: rest) := by
  have hall : ∀ q ∈ encodingPrefixes, 'R' ∈ q →
      q ∈ ["u8R".toList, "uR".toList, "UR".toList, "LR".toList, "R".toList] := by decide
  have hcases := hall p hp hraw
  simp only [List.mem_cons, List.not_mem_nil, or_false] at hcases
  rcases hcases with rfl | rfl | rfl | rfl | rfl
  all_goals exact ⟨_, _, rfl, rfl, fun _ => rfl⟩

theorem length_rawLiteral (p d body : List Char) :
    (rawLiteral p d body).length = p.length + 1 + d.length + 1 + body.length + (d.length + 2) := by
  simp only [rawLiteral, Extent.rawTerminator, List.length_append, List.length_cons,
    List.length_nil]
  omega

theorem drop_rawLiteral (p d body after : List Char) :
    (rawLiteral p d body ++ after).drop (p.length + 1) =
      d ++ '(' :: (body ++ (Extent.rawTerminator d ++ after)) := by
  rw [rawLiteral, List.append_assoc, List.drop_length_add_append]
  simp

/-- A raw string with a short delimiter is one token. -/
theorem rawString_of_short (hopen : '(' ∉ d) (hclose : ')' ∉ d) (hfeed : '\n' ∉ d)
    (hbody : ¬ Extent.rawTerminator d <:+: body) (hlength : d.length ≤ Extent.maxDelimiter)
    (p after : List Char) : rawString p.length (rawLiteral p d body ++ after) =
      (.token ⟨.string, String.ofList (rawLiteral p d body)⟩, (rawLiteral p d body).length) := by
  have hrecurs : ')' ∉ d ++ ['"'] := by simp [hclose]
  have hparts : RawParts ((rawLiteral p d body ++ after).drop (p.length + 1)) d
      (body ++ (Extent.rawTerminator d ++ after)) body.length :=
    ⟨drop_rawLiteral p d body after, ⟨hopen, hfeed⟩, hlength,
      Extent.firstOccurrence?_of_not_infix hrecurs hbody after⟩
  rw [hparts.rawString, ← length_rawLiteral, tokenOf, List.take_left]

theorem faultyOf_append (fault : Fault) (place : Nat) {front : List Char} (hfeed : '\n' ∉ front)
    (back : List Char) : faultyOf fault place front.length (front ++ back) =
      (.faulty fault place, ((front ++ back).takeWhile (· ≠ '\n')).length) := by
  have hall : ∀ c ∈ front, decide (c ≠ '\n') = true := fun c hc =>
    decide_eq_true fun heq => hfeed (heq ▸ hc)
  rw [faultyOf, List.drop_left, List.takeWhile_append_of_pos hall, List.length_append]

/-- Behind as many characters as a delimiter may have there has to be a parenthesis. -/
theorem rawString_of_far {near more : List Char} {c : Char} (hopen : '(' ∉ near)
    (hfeed : '\n' ∉ near) (hlength : near.length = Extent.maxDelimiter) (hc : c ≠ '(') :
    rawString p.length (p ++ '"' :: (near ++ c :: more)) =
      faultyOf .malformedDelimiter p.length (p.length + 1 + near.length)
        (p ++ '"' :: (near ++ c :: more)) := by
  have hinside : (p ++ '"' :: (near ++ c :: more)).drop (p.length + 1) = near ++ c :: more := by
    rw [List.drop_length_add_append]
    rfl
  have hdelimiter : Extent.rawDelimiter (near ++ c :: more) = near := by
    rw [Extent.rawDelimiter, Extent.takeWhile_delimiter hopen hfeed, ← hlength, List.take_left]
  unfold rawString
  simp only [hinside, hdelimiter, List.drop_left]
  split
  next body hbody => exact absurd (List.cons_eq_cons.1 hbody).1 hc
  next => rfl

/-- A raw string with a long delimiter is given up on together with its line. -/
theorem rawString_of_long (hp : '\n' ∉ p) (hopen : '(' ∉ d) (hfeed : '\n' ∉ d)
    (hlength : Extent.maxDelimiter < d.length) (body after : List Char) :
    rawString p.length (rawLiteral p d body ++ after) =
      (.faulty .malformedDelimiter p.length,
        ((rawLiteral p d body ++ after).takeWhile (· ≠ '\n')).length) := by
  obtain ⟨near, c, far, rfl, hnear⟩ : ∃ near c far, d = near ++ c :: far ∧
      near.length = Extent.maxDelimiter :=
    ⟨d.take Extent.maxDelimiter, d[Extent.maxDelimiter], d.drop (Extent.maxDelimiter + 1),
      by simp, List.length_take_of_le (Nat.le_of_lt hlength)⟩
  simp only [List.mem_append, List.mem_cons, not_or] at hopen hfeed
  have hsplit : rawLiteral p (near ++ c :: far) body ++ after = p ++ '"' :: (near ++ c ::
      (far ++ '(' :: (body ++ (Extent.rawTerminator (near ++ c :: far) ++ after)))) := by
    simp [rawLiteral]
  have hfront : '\n' ∉ p ++ '"' :: near := by simp [hp, hfeed.1]
  have hgiven := faultyOf_append .malformedDelimiter p.length hfront
    (c :: (far ++ '(' :: (body ++ (Extent.rawTerminator (near ++ c :: far) ++ after))))
  have hread : (p ++ '"' :: near).length = p.length + 1 + near.length := by
    rw [List.length_append, List.length_cons]
    omega
  rw [hread, List.append_assoc, List.cons_append] at hgiven
  rw [hsplit, rawString_of_far hopen.1 hfeed.1 hnear (Ne.symm hopen.2.1), hgiven]

end Piece

/-! ## Where reading comes to -/

/-- Reading comes to a place where no layout stands only at the start of a piece. -/
theorem exists_pieces_of_reaches (fresh : Bool) (cs : List Char) {rest : List Char} {c : Char}
    (hc : Text.isLayout c = false) : ∀ (before : List Char) (p : Position),
    cs = before ++ c :: rest →
    (∀ e ∈ placed p (pieces fresh cs), e.2.kind ≠ .layout →
      e.1.offset + e.2.raw.length ≤ p.offset + before.length ∨
        p.offset + before.length ≤ e.1.offset) →
    ∃ ps fresh', ps.flatMap (·.raw) = before ∧
      pieces fresh cs = ps ++ pieces fresh' (c :: rest) := by
  fun_induction pieces fresh cs with
  | case1 => exact fun before p hcs => absurd hcs (by simp)
  | case2 fresh b more kind n hr piece ih =>
      intro before p hcs hreaches
      cases before with
      | nil =>
          obtain ⟨rfl, rfl⟩ := List.cons_eq_cons.1 hcs
          refine ⟨[], fresh, rfl, ?_⟩
          rw [pieces_cons hr]
          rfl
      | cons b' before =>
          rw [List.cons_append] at hcs
          obtain ⟨rfl, rfl⟩ := List.cons_eq_cons.1 hcs
          rcases Nat.lt_or_ge before.length (n - 1) with hlt | hle
          · -- the piece lies across the place, so it is layout, and so is what stands there
            have hkind : kind = .layout := by
              refine Classical.byContradiction fun hkind => ?_
              have := hreaches _ List.mem_cons_self hkind
              simp only [piece, List.length_cons, List.length_take, List.length_append] at this
              omega
            subst hkind
            have hacross : Piece.recognise fresh b (b :: (before ++ [c] ++ rest)) = (.layout, n) := by
              simpa using hr
            have hlayout := Piece.isLayout_of_recognise hacross
              (by rw [List.length_append]; exact hlt) c (by simp)
            rw [hc] at hlayout
            cases hlayout
          · obtain ⟨ps, fresh', hps, hpieces⟩ := ih (before.drop (n - 1)) (p.after piece.raw)
              (List.drop_append_of_le_length hle) fun e he hkind => by
                have := hreaches e (List.mem_cons_of_mem _ he) hkind
                rw [Position.after_offset]
                simp only [piece, List.length_cons, List.length_take, List.length_append,
                  List.length_drop] at this ⊢
                omega
            refine ⟨piece :: ps, fresh', ?_, by rw [hpieces]; rfl⟩
            rw [List.flatMap_cons, hps]
            simp [piece, List.take_append_of_le_length hle]

/-- A recognised piece is one of the pieces of the text. -/
theorem pieces_of_recognise {text rest : List Char} {ps : List Piece} {fresh : Bool} {c : Char}
    {kind : PieceKind} {n : Nat} (h : pieces true text = ps ++ pieces fresh (c :: rest))
    (hr : Piece.recognise fresh c (c :: rest) = (kind, n)) (hn : 0 < n) :
    ∃ qs, pieces true text = ps ++ ⟨kind, (c :: rest).take n⟩ :: qs := by
  obtain ⟨m, rfl⟩ := Nat.exists_eq_add_one_of_ne_zero (Nat.ne_of_gt hn)
  rw [h, pieces_cons hr]
  exact ⟨_, rfl⟩

/-- The characters from `start` to `stop` are given up on: a fault at `place` is all that is
recorded on them, no token is read there, and reading comes to their end. -/
structure GivesUp (text : List Char) (start place stop : Nat) (fault : Fault) : Prop where
  recorded : (Text.placeAt text place, fault) ∈ faults text
  single : ∀ e ∈ faults text,
    e.1.offset < start ∨ e = (Text.placeAt text place, fault) ∨ stop ≤ e.1.offset
  tokenless : ∀ t ∈ tokens text, t.stop ≤ start ∨ stop ≤ t.start.offset
  next : Reaches text stop

/-- A faulty piece is given up on. -/
theorem givesUp_of_piece {text raw : List Char} {ps qs : List Piece} {fault : Fault} {place : Nat}
    (h : pieces true text = ps ++ ⟨.faulty fault place, raw⟩ :: qs) :
    GivesUp text (ps.flatMap (·.raw)).length ((ps.flatMap (·.raw)).length + place)
      ((ps.flatMap (·.raw)).length + raw.length) fault := by
  have hmem : (⟨.faulty fault place, raw⟩ : Piece) ∈ pieces true text := by
    rw [h]
    exact List.mem_append_right _ List.mem_cons_self
  have hplace : (ps.flatMap (·.raw) ++ raw.take place).length =
      (ps.flatMap (·.raw)).length + place := by
    rw [List.length_append, List.length_take_of_le (Nat.le_of_lt (place_lt_of_mem_pieces hmem))]
  have htext : text = (ps.flatMap (·.raw) ++ raw.take place) ++
      (raw.drop place ++ qs.flatMap (·.raw)) := by
    rw [List.append_assoc, ← List.append_assoc (raw.take place), List.take_append_drop,
      ← flatMap_raw_pieces true text, h, List.flatMap_append, List.flatMap_cons]
  have hat : Piece.asFault? (Position.start.after (ps.flatMap (·.raw)), ⟨.faulty fault place, raw⟩)
      = some (Text.placeAt text ((ps.flatMap (·.raw)).length + place), fault) := by
    rw [Piece.asFault?, ← Position.after_append, ← hplace, htext, ← Text.after_prefix]
  refine ⟨List.mem_filterMap.2 ⟨_, mem_placedPieces h, hat⟩, fun e he => ?_, fun t ht => ?_, ?_⟩
  · rcases faults_at_piece h he with hlt | hfault | hle
    · exact .inl hlt
    · rw [hat] at hfault
      exact .inr (.inl (Option.some.inj hfault).symm)
    · exact .inr (.inr hle)
  · obtain ⟨raw', hmem', hstop⟩ := exists_piece_of_mem_tokens ht
    rcases trichotomy_placed h hmem' with hle | heq | hle
    · exact .inl (hstop ▸ hle)
    · -- what is given up on is no token
      have hkind := congrArg (·.2.kind) heq
      cases hkind
    · exact .inr hle
  · have hsplit : pieces true text = (ps ++ [⟨.faulty fault place, raw⟩]) ++ qs := by simp [h]
    simpa using Reaches.of_append hsplit

/-- Where reading comes to a raw string, one with a short delimiter is read as a token of exactly
its characters, whatever stands in its body, and one with a long delimiter is given up on at its
quote together with its line. -/
theorem raw_strings_read_exactly {text before p d body after : List Char}
    (hp : p ∈ Piece.encodingPrefixes) (hraw : 'R' ∈ p) (hopen : '(' ∉ d) (hclose : ')' ∉ d)
    (hfeed : '\n' ∉ d) (hbody : ¬ Extent.rawTerminator d <:+: body)
    (htext : text = before ++ (rawLiteral p d body ++ after))
    (hreaches : Reaches text before.length) :
    (d.length ≤ Extent.maxDelimiter → ReadsToken text before.length
      (before.length + (rawLiteral p d body).length)
      ⟨.string, String.ofList (rawLiteral p d body)⟩) ∧
    (Extent.maxDelimiter < d.length → GivesUp text before.length (before.length + p.length)
      (before.length + ((rawLiteral p d body ++ after).takeWhile (· ≠ '\n')).length)
      .malformedDelimiter ∧
        ⟨Text.lineAt text (before.length + p.length), Text.columnAt text (before.length + p.length),
          "Malformed raw string delimiter"⟩ ∈ tokenDiagnostics text) := by
  have hliteral : rawLiteral p d body ++ after =
      p ++ '"' :: (d ++ '(' :: (body ++ (Extent.rawTerminator d ++ after))) := by simp [rawLiteral]
  obtain ⟨c, rest, hcs, hlayout, hr⟩ := Piece.recognise_raw hp hraw
    (d ++ '(' :: (body ++ (Extent.rawTerminator d ++ after)))
  rw [← hliteral] at hcs
  rw [hcs] at htext
  -- reading comes to the prefix, so a piece starts there
  obtain ⟨ps, fresh, rfl, hpieces⟩ := exists_pieces_of_reaches true text hlayout before .start htext
    fun e he hkind => by simpa [Position.start] using hreaches e he hkind
  constructor
  · intro hlength
    have hshort := Piece.rawString_of_short hopen hclose hfeed hbody hlength p after
    rw [hcs] at hshort
    obtain ⟨qs, hqs⟩ := pieces_of_recognise hpieces ((hr fresh).trans hshort)
      (by rw [Piece.length_rawLiteral]; omega)
    rw [← hcs, List.take_left] at hqs
    exact readsToken_of_piece hqs
  · intro hlength
    have hlong := Piece.rawString_of_long (Piece.newline_notMem_encodingPrefixes hp) hopen hfeed
      hlength body after
    rw [hcs] at hlong ⊢
    have hc : c ≠ '\n' := by
      rintro rfl
      cases hlayout
    obtain ⟨qs, hqs⟩ := pieces_of_recognise hpieces ((hr fresh).trans hlong) (by simp [hc])
    have hgiven := givesUp_of_piece hqs
    rw [List.length_take_of_le (List.takeWhile_prefix _).length_le] at hgiven
    exact ⟨hgiven, List.mem_map.2 ⟨_, hgiven.recorded, rfl⟩⟩

/-- A shorter terminator, a comment opener and a line end in the body of a raw string, and a
delimiter of eighteen characters. -/
theorem raw_strings_read_exactly_nested :
    ReadsToken "s = u8R\"x(a)\"//\n)x)x\";".toList 4 21 ⟨.string, "u8R\"x(a)\"//\n)x)x\""⟩ ∧
      GivesUp "R\"delimiter_too_long(\n)delimiter_too_long\"".toList 0 1 21
        .malformedDelimiter := by
  have hshort := @raw_strings_read_exactly _ "s = ".toList "u8R".toList "x".toList
    "a)\"//\n)x".toList ";".toList (by decide) (by decide) (by decide) (by decide) (by decide)
    (by decide +kernel) rfl (by unfold Reaches; decide +kernel)
  have hlong := @raw_strings_read_exactly _ [] "R".toList "delimiter_too_long".toList
    "\n".toList [] (by decide) (by decide) (by decide) (by decide) (by decide)
    (by decide +kernel) rfl (fun e _ _ => .inr (Nat.zero_le _))
  exact ⟨hshort.1 (by decide +kernel), (hlong.2 (by decide +kernel)).1⟩

/-- A delimiter of seventeen characters is read. -/
theorem raw_string_with_long_delimiter :
    ∃ d : List Char, d = List.replicate 17 'a' ∧
      tokens (rawLiteral "R".toList d "x".toList) =
        [⟨⟨.string, String.ofList (rawLiteral "R".toList d "x".toList)⟩, .start, 40⟩] ∧
      tokenDiagnostics (rawLiteral "R".toList d "x".toList) = [] :=
  ⟨_, rfl, by decide +kernel, by decide +kernel⟩

end CxxFloor
