/-
# What becomes of every character

The lexer passes a text in pieces.  Put together as far as they belong
together they are stretches: a token, a run of what stands between tokens, or
what was given up on.  The stretches make up the text, the tokens among them
are its tokens, the remarks on them its diagnostics
(`stretches_account_for_text`).

A stretch is judged by the text alone: by what it reads, and by what stands
before and after it (`Stretch.Fits`).  Nothing is said of how it was found, so
a lexer that skipped a character that it should have read, or that read one
twice, would not have such stretches.

Each remark is at a place of its own stretch.  Since a line and a column say
where in a text they are, no remark can belong to two stretches
(`Accounts.filter_remarks`).
-/
import CxxFloor.Proofs.Text.Lines
import CxxFloor.Proofs.Token.Abandoned
import CxxFloor.Proofs.Token.Places
import Mathlib.Data.List.Chain

namespace CxxFloor

/-- A stretch of a text, and what it was read as. -/
inductive Stretch where
  | token (t : Token) (raw : List Char)
  /-- Layout, joined line ends and comments. -/
  | blank (raw : List Char)
  /-- What was given up on, with the remark on it. -/
  | error (remark : Diagnostic) (raw : List Char)

namespace Stretch

def raw : Stretch → List Char
  | token _ raw | blank raw | error _ raw => raw

/-- The token that the stretch is. -/
def token? : Stretch → Option Token
  | token t _ => some t
  | _ => none

/-- The remark on the stretch. -/
def remark? : Stretch → Option Diagnostic
  | error remark _ => some remark
  | _ => none

def isError (s : Stretch) : Bool := s.remark?.isSome

/-- The stretch is what it says, with `before` in front of it and `after` behind it. -/
def Fits (before after : List Char) : Stretch → Prop
  | token t raw =>
    raw ≠ [] ∧ t.start.offset = before.length ∧ t.stop = before.length + raw.length
  | blank raw => raw ≠ [] ∧ Trivia after raw
  | error remark raw =>
    (after = [] ∨ after.head? = some '\n') ∧
      ∃ fault place, Abandoned fault place (raw ++ after) ∧ place < raw.length ∧
        remark = fault.diagnostic (Text.placeAt (before ++ raw ++ after) (before.length + place))

/-- Two stretches next to each other would not rather be one. -/
def Apart : Stretch → Stretch → Prop
  | blank _, blank _ => False
  | error _ _, error _ _ => False
  | _, _ => True

/-- The stretches stand one behind the other, with `before` in front of the first, and fit. -/
inductive Laid : List Char → List Stretch → Prop
  | nil {before : List Char} : Laid before []
  | cons {before : List Char} {s : Stretch} {rest : List Stretch}
      (hfits : s.Fits before (rest.flatMap raw)) (hrest : Laid (before ++ s.raw) rest) :
      Laid before (s :: rest)

/-! ## Joining pieces -/

/-- A stretch in front of others, joined to the first of them if both are blank. -/
def join : Stretch → List Stretch → List Stretch
  | blank raw, blank raw' :: rest => blank (raw ++ raw') :: rest
  | s, rest => s :: rest

/-- What a placed piece is read as. -/
def ofPiece : Position × Piece → Stretch
  | (p, ⟨.token lexeme, raw⟩) => token ⟨lexeme, p, p.offset + raw.length⟩ raw
  | (p, ⟨.faulty fault place, raw⟩) => error (fault.diagnostic (p.after (raw.take place))) raw
  | (_, ⟨_, raw⟩) => blank raw

def ofPieces (ps : List (Position × Piece)) : List Stretch :=
  ps.foldr (fun e rest => (ofPiece e).join rest) []

variable {s : Stretch} {rest : List Stretch} {before : List Char}

theorem join_cases (s : Stretch) (rest : List Stretch) :
    s.join rest = s :: rest ∨
      ∃ raw raw' rest', s = blank raw ∧ rest = blank raw' :: rest' ∧
        s.join rest = blank (raw ++ raw') :: rest' := by
  cases s with
  | blank raw =>
      cases rest with
      | nil => exact .inl rfl
      | cons s' rest =>
          cases s' with
          | blank raw' => exact .inr ⟨raw, raw', rest, rfl, rfl, rfl⟩
          | _ => exact .inl rfl
  | _ => exact .inl rfl

theorem flatMap_raw_join : (s.join rest).flatMap raw = s.raw ++ rest.flatMap raw := by
  rcases join_cases s rest with h | ⟨raw, raw', rest', rfl, rfl, h⟩
  · rw [h, List.flatMap_cons]
  · rw [h, List.flatMap_cons, List.flatMap_cons, ← List.append_assoc]
    rfl

theorem filterMap_join {α : Type} {f : Stretch → Option α} (hf : ∀ raw, f (blank raw) = none) :
    (s.join rest).filterMap f = (f s).toList ++ rest.filterMap f := by
  rcases join_cases s rest with h | ⟨raw, raw', rest', rfl, rfl, h⟩
  · rw [h]
    cases hs : f s <;> simp [hs]
  · rw [h]
    simp [hf]

theorem laid_cons : Laid before (s :: rest) ↔
    s.Fits before (rest.flatMap raw) ∧ Laid (before ++ s.raw) rest := by
  constructor
  · intro h
    cases h with
    | cons hfits hrest => exact ⟨hfits, hrest⟩
  · rintro ⟨hfits, hrest⟩
    exact .cons hfits hrest

theorem Laid.join (h : Laid before (s :: rest)) : Laid before (s.join rest) := by
  rcases join_cases s rest with heq | ⟨raw, raw', rest', rfl, rfl, heq⟩
  · rwa [heq]
  · obtain ⟨⟨hne, hraw⟩, hrest⟩ := laid_cons.1 h
    obtain ⟨⟨-, hraw'⟩, hrest⟩ := laid_cons.1 hrest
    rw [List.append_assoc] at hrest
    rw [heq]
    exact .cons ⟨List.append_ne_nil_of_left_ne_nil hne _, hraw.append hraw'⟩ hrest

theorem Laid.isError_head? (h : Laid before (s :: rest)) (hs : s.isError = true) :
    ∀ s' ∈ rest.head?, s'.isError = false := by
  intro s' hhead
  obtain ⟨rest', rfl⟩ := List.head?_eq_some_iff.1 hhead
  obtain ⟨hfits, hrest⟩ := laid_cons.1 h
  obtain ⟨hfits', -⟩ := laid_cons.1 hrest
  cases s' with
  | error remark' raw' =>
      cases s with
      | error remark raw =>
          obtain ⟨-, fault, place, habandoned, hplace, -⟩ := hfits'
          cases raw' with
          | nil => exact absurd hplace (Nat.not_lt_zero _)
          | cons c raw' =>
              rcases hfits.1 with hnil | hfeed
              · cases hnil
              · exact absurd hfeed habandoned.head?_ne
      | _ => cases hs
  | _ => rfl

theorem isChain_join (hlaid : Laid before (s :: rest)) (hrest : rest.IsChain Apart) :
    (s.join rest).IsChain Apart := by
  cases s with
  | token t raw => exact hrest.cons fun s' _ => trivial
  | error remark raw =>
      refine hrest.cons fun s' hs' => ?_
      have hno := hlaid.isError_head? rfl s' hs'
      cases s' with
      | error => cases hno
      | _ => exact trivial
  | blank raw =>
      cases rest with
      | nil => exact .singleton _
      | cons s' rest =>
          obtain ⟨hhead, htail⟩ := List.isChain_cons.1 hrest
          cases s' with
          | blank raw' =>
              refine htail.cons fun s' hs' => ?_
              have := hhead s' hs'
              cases s' <;> exact this
          | _ => exact .cons_cons trivial hrest

/-! ## The stretches of a text -/

theorem flatMap_raw_ofPieces (p : Position) (ps : List Piece) :
    (ofPieces (placed p ps)).flatMap raw = ps.flatMap (·.raw) := by
  induction ps generalizing p with
  | nil => rfl
  | cons piece ps ih =>
      show ((ofPiece (p, piece)).join (ofPieces (placed _ ps))).flatMap raw = _
      rw [flatMap_raw_join, ih, List.flatMap_cons]
      obtain ⟨kind, raw⟩ := piece
      cases kind <;> rfl

theorem filterMap_ofPieces {α : Type} {f : Stretch → Option α} (hf : ∀ raw, f (blank raw) = none)
    (ps : List (Position × Piece)) :
    (ofPieces ps).filterMap f = ps.filterMap fun e => f (ofPiece e) := by
  induction ps with
  | nil => rfl
  | cons e ps ih =>
      show ((ofPiece e).join (ofPieces ps)).filterMap f = _
      rw [filterMap_join hf, ih, List.filterMap_cons]
      cases f (ofPiece e) <;> rfl

end Stretch

namespace Piece

theorem isTrivia_token (fresh : Bool) (c : Char) (cs : List Char) :
    (token fresh c cs).1.isTrivia = false := by
  unfold token directive prefixed rawString quotation punctuator
  dsimp only
  repeat' split
  all_goals rfl

theorem trivia?_of_recognise {fresh : Bool} {c : Char} {cs : List Char} {kind : PieceKind} {n : Nat}
    (h : recognise fresh c cs = (kind, n)) (hkind : kind.isTrivia = true) :
    trivia? cs = some (kind, n) := by
  unfold recognise at h
  cases htrivia : trivia? cs with
  | none =>
      rw [htrivia, Option.getD_none] at h
      have hno := isTrivia_token fresh c cs
      rw [h, hkind] at hno
      cases hno
  | some r =>
      rw [htrivia, Option.getD_some] at h
      rw [h]

theorem drop_faultyOf {fault : Fault} {place read : Nat} {cs : List Char} {kind : PieceKind} {n : Nat}
    (h : (kind, n) = faultyOf fault place read cs) :
    cs.drop n = [] ∨ (cs.drop n).head? = some '\n' := by
  cases h
  rw [← List.drop_drop, Extent.drop_length_takeWhile]
  have hhead := List.head?_dropWhile_not (fun c => decide (c ≠ '\n')) (cs.drop read)
  cases hrest : (cs.drop read).dropWhile fun c => decide (c ≠ '\n') with
  | nil => exact .inl rfl
  | cons c rest =>
      rw [hrest] at hhead
      refine .inr (congrArg some ?_)
      simpa using hhead

end Piece

namespace Stretch

theorem fits_token (before after : List Char) (lexeme : Lexeme) {raw : List Char} (hne : raw ≠ []) :
    (ofPiece (Position.start.after before, ⟨.token lexeme, raw⟩)).Fits before after := by
  have hoffset : (Position.start.after before).offset = before.length := by
    rw [Position.after_offset]
    exact Nat.zero_add _
  exact ⟨hne, hoffset, congrArg (· + raw.length) hoffset⟩

theorem fits_faulty {before raw after : List Char} {fault : Fault} {place : Nat}
    (hafter : after = [] ∨ after.head? = some '\n') (h : Abandoned fault place (raw ++ after))
    (hplace : place < raw.length) :
    (ofPiece (Position.start.after before, ⟨.faulty fault place, raw⟩)).Fits before after := by
  refine ⟨hafter, fault, place, h, hplace, ?_⟩
  have hat := Text.after_prefix (before ++ raw.take place) (raw.drop place ++ after)
  have hlength : (before ++ raw.take place).length = before.length + place := by
    rw [List.length_append, List.length_take_of_le (Nat.le_of_lt hplace)]
  rw [hlength, Position.after_append, List.append_assoc, ← List.append_assoc (raw.take place),
    List.take_append_drop, ← List.append_assoc] at hat
  rw [← hat]

/-- A recognised piece fits where it stands. -/
theorem fits_of_recognise {fresh : Bool} {c : Char} {rest : List Char} {kind : PieceKind} {n : Nat}
    (h : Piece.recognise fresh c (c :: rest) = (kind, n)) (before : List Char) :
    (ofPiece (Position.start.after before, ⟨kind, c :: rest.take (n - 1)⟩)).Fits before
      (rest.drop (n - 1)) := by
  have hcut : 0 < n → (c :: rest).take n = c :: rest.take (n - 1) ∧
      (c :: rest).drop n = rest.drop (n - 1) := by
    intro hn
    obtain ⟨m, rfl⟩ := Nat.exists_eq_add_one_of_ne_zero (Nat.ne_of_gt hn)
    exact ⟨rfl, rfl⟩
  have hblank : kind.isTrivia = true → Trivia (rest.drop (n - 1)) (c :: rest.take (n - 1)) := by
    intro hkind
    obtain ⟨hn, htrivia⟩ := Trivia.of_trivia? (Piece.trivia?_of_recognise h hkind) hkind
    rwa [(hcut hn).1, (hcut hn).2] at htrivia
  cases kind with
  | token lexeme => exact fits_token _ _ _ (List.cons_ne_nil _ _)
  | faulty fault place =>
      obtain ⟨habandoned, read, hread, hfaulty⟩ :=
        Piece.abandonedAs_recognise fresh c rest fault place (congrArg Prod.fst h)
      rw [h] at hfaulty
      have hn : place < n := by
        have hsnd := congrArg Prod.snd hfaulty
        simp only [Piece.faultyOf] at hsnd
        omega
      obtain ⟨htake, hdrop⟩ := hcut (Nat.zero_lt_of_lt hn)
      refine fits_faulty (hdrop ▸ Piece.drop_faultyOf hfaulty) ?_ ?_
      · rwa [List.cons_append, List.take_append_drop]
      · rw [← htake, List.length_take]
        have := habandoned.lt_length
        omega
  | layout => exact ⟨List.cons_ne_nil _ _, hblank rfl⟩
  | splice => exact ⟨List.cons_ne_nil _ _, hblank rfl⟩
  | lineComment => exact ⟨List.cons_ne_nil _ _, hblank rfl⟩
  | blockComment => exact ⟨List.cons_ne_nil _ _, hblank rfl⟩

theorem laid_ofPieces (fresh : Bool) (cs before : List Char) :
    Laid before (ofPieces (placed (.after .start before) (pieces fresh cs))) ∧
      (ofPieces (placed (.after .start before) (pieces fresh cs))).IsChain Apart := by
  fun_induction pieces fresh cs generalizing before with
  | case1 => exact ⟨.nil, .nil⟩
  | case2 fresh c rest kind n h piece ih =>
      obtain ⟨hlaid, hchain⟩ := ih (before ++ piece.raw)
      rw [Position.after_append] at hlaid hchain
      have hfits := fits_of_recognise h before
      have hbehind := flatMap_raw_ofPieces ((Position.after .start before).after piece.raw)
        (pieces (piece.freshAfter fresh) (rest.drop (n - 1)))
      rw [flatMap_raw_pieces] at hbehind
      rw [← hbehind] at hfits
      have hraw : (ofPiece (Position.after .start before, piece)).raw = piece.raw := by
        cases kind <;> rfl
      have hall := Laid.cons hfits (hraw ▸ hlaid)
      exact ⟨hall.join, isChain_join hall hchain⟩

theorem Laid.fits {bs behind : List Stretch} (h : Laid before (bs ++ s :: behind)) :
    s.Fits (before ++ bs.flatMap raw) (behind.flatMap raw) := by
  induction bs generalizing before with
  | nil =>
      rw [List.flatMap_nil, List.append_nil]
      exact (laid_cons.1 h).1
  | cons s' bs ih =>
      have hfits := ih (laid_cons.1 h).2
      rwa [List.append_assoc] at hfits

end Stretch

/-! ## Accounting for a text -/

/-- The stretches account for the text: they make it up, they show its tokens and the remarks on
it, no two next to each other belong together, and each of them fits where it stands. -/
structure Accounts (text : List Char) (parts : List Stretch) : Prop where
  whole : parts.flatMap Stretch.raw = text
  tokens : parts.filterMap Stretch.token? = tokens text
  remarks : parts.filterMap Stretch.remark? = tokenDiagnostics text
  apart : parts.IsChain Stretch.Apart
  fits : ∀ before s behind, parts = before ++ s :: behind →
    s.Fits (before.flatMap Stretch.raw) (behind.flatMap Stretch.raw)

theorem accounts_ofPieces (text : List Char) :
    Accounts text (Stretch.ofPieces (placedPieces text)) := by
  obtain ⟨hlaid, hchain⟩ := Stretch.laid_ofPieces true text []
  refine ⟨?_, ?_, ?_, hchain, ?_⟩
  · exact (Stretch.flatMap_raw_ofPieces _ _).trans (flatMap_raw_pieces true text)
  · rw [Stretch.filterMap_ofPieces fun _ => rfl]
    refine List.filterMap_congr fun e _ => ?_
    obtain ⟨p, kind, raw⟩ := e
    cases kind <;> rfl
  · rw [Stretch.filterMap_ofPieces fun _ => rfl, tokenDiagnostics, faults, List.map_filterMap]
    refine List.filterMap_congr fun e _ => ?_
    obtain ⟨p, kind, raw⟩ := e
    cases kind <;> rfl
  · rintro before s behind hparts
    rw [placedPieces] at hparts
    exact (hparts ▸ hlaid : Stretch.Laid [] (before ++ s :: behind)).fits

/-- The remark stands at an offset from `start` on and before `stop`. -/
def Diagnostic.standsBetween (text : List Char) (start stop : Nat) (d : Diagnostic) : Bool :=
  (List.range' start (stop - start)).any fun k =>
    d.line == Text.lineAt text k && d.column == Text.columnAt text k

def Diagnostic.StandsAt (text : List Char) (k : Nat) (d : Diagnostic) : Prop :=
  k < text.length ∧ d.line = Text.lineAt text k ∧ d.column = Text.columnAt text k

theorem Diagnostic.StandsAt.standsBetween_iff {text : List Char} {k start stop : Nat}
    {d : Diagnostic} (h : d.StandsAt text k) (hstop : stop ≤ text.length) :
    d.standsBetween text start stop = true ↔ start ≤ k ∧ k < stop := by
  obtain ⟨hk, hline, hcolumn⟩ := h
  simp only [standsBetween, List.any_eq_true, List.mem_range'_1, Bool.and_eq_true, beq_iff_eq]
  constructor
  · rintro ⟨j, hj, hline', hcolumn'⟩
    have hjk : j = k := Text.placeAt_inj (by omega) (Nat.le_of_lt hk)
      (Int.ofNat.inj (hline'.symm.trans hline)) (Int.ofNat.inj (hcolumn'.symm.trans hcolumn))
    omega
  · rintro ⟨hstart, hlt⟩
    exact ⟨k, by omega, hline, hcolumn⟩

namespace Accounts

variable {text : List Char} {parts before behind : List Stretch} {remark : Diagnostic}
  {raw : List Char}

theorem standsAt (h : Accounts text parts) (hparts : parts = before ++ .error remark raw :: behind) :
    ∃ k, (before.flatMap Stretch.raw).length ≤ k ∧
      k < (before.flatMap Stretch.raw).length + raw.length ∧ remark.StandsAt text k := by
  obtain ⟨-, fault, place, -, hplace, rfl⟩ := h.fits _ _ _ hparts
  have htext : text = before.flatMap Stretch.raw ++ raw ++ behind.flatMap Stretch.raw := by
    rw [← h.whole, hparts]
    simp [Stretch.raw]
  rw [← htext]
  refine ⟨_, Nat.le_add_right _ place, by omega, ?_, rfl, rfl⟩
  rw [htext, List.length_append, List.length_append]
  omega

/-- The remarks on some of the stretches stand in the characters of these. -/
theorem standsAt_of_mem {middle : List Stretch} (h : Accounts text parts)
    (hparts : parts = before ++ middle ++ behind)
    (hmem : remark ∈ middle.filterMap Stretch.remark?) :
    ∃ k, (before.flatMap Stretch.raw).length ≤ k ∧
      k < (before.flatMap Stretch.raw).length + (middle.flatMap Stretch.raw).length ∧
      remark.StandsAt text k := by
  obtain ⟨s, hs, hremark⟩ := List.mem_filterMap.1 hmem
  obtain ⟨left, right, rfl⟩ := List.append_of_mem hs
  cases s with
  | error remark' raw =>
      obtain rfl := Option.some.inj hremark
      have hparts' : parts = (before ++ left) ++ .error remark' raw :: (right ++ behind) := by
        rw [hparts]
        simp
      obtain ⟨k, hle, hlt, hat⟩ := h.standsAt hparts'
      simp only [List.flatMap_append, List.flatMap_cons, List.length_append, Stretch.raw]
        at hle hlt ⊢
      exact ⟨k, by omega, by omega, hat⟩
  | _ => cases hremark

/-- None of the remarks on some of the stretches stands before or behind these. -/
theorem filter_remarks_eq_nil {middle : List Stretch} (h : Accounts text parts)
    (hparts : parts = before ++ middle ++ behind) {start stop : Nat} (hstop : stop ≤ text.length)
    (hapart : stop ≤ (before.flatMap Stretch.raw).length ∨
      (before.flatMap Stretch.raw).length + (middle.flatMap Stretch.raw).length ≤ start) :
    (middle.filterMap Stretch.remark?).filter (·.standsBetween text start stop) = [] := by
  refine List.filter_eq_nil_iff.2 fun d hd hbetween => ?_
  obtain ⟨k, hle, hlt, hat⟩ := h.standsAt_of_mem hparts hd
  have := (hat.standsBetween_iff hstop).1 hbetween
  omega

/-- Of all remarks on a text exactly one stands in a stretch that was given up on. -/
theorem filter_remarks (h : Accounts text parts)
    (hparts : parts = before ++ .error remark raw :: behind) :
    (tokenDiagnostics text).filter (·.standsBetween text (before.flatMap Stretch.raw).length
      ((before.flatMap Stretch.raw).length + raw.length)) = [remark] := by
  have hlength : text.length = (before.flatMap Stretch.raw).length + raw.length
      + (behind.flatMap Stretch.raw).length := by
    rw [← h.whole, hparts]
    simp [Stretch.raw, Nat.add_assoc]
  have hstop : (before.flatMap Stretch.raw).length + raw.length ≤ text.length := by omega
  have hfirst : parts = [] ++ before ++ .error remark raw :: behind := hparts
  have hlast : parts = (before ++ [.error remark raw]) ++ behind ++ [] := by
    rw [hparts]
    simp
  have hbefore : (before.filterMap Stretch.remark?).filter (·.standsBetween text
      (before.flatMap Stretch.raw).length
      ((before.flatMap Stretch.raw).length + raw.length)) = [] :=
    h.filter_remarks_eq_nil hfirst hstop (.inr (by simp))
  have hbehind : (behind.filterMap Stretch.remark?).filter (·.standsBetween text
      (before.flatMap Stretch.raw).length
      ((before.flatMap Stretch.raw).length + raw.length)) = [] :=
    h.filter_remarks_eq_nil hlast hstop (.inl (by simp [Stretch.raw]))
  obtain ⟨k, hle, hlt, hat⟩ := h.standsAt hparts
  rw [← h.remarks, hparts, List.filterMap_append, List.filterMap_cons]
  dsimp only [Stretch.remark?]
  rw [List.filter_append, List.filter_cons, hbefore, hbehind,
    if_pos ((hat.standsBetween_iff hstop).2 ⟨hle, hlt⟩), List.nil_append]

theorem countP_isError (h : Accounts text parts) :
    parts.countP Stretch.isError = (tokenDiagnostics text).length := by
  rw [← h.remarks, List.length_filterMap_eq_countP]
  rfl

end Accounts

/-- The tokens of a text are not empty and do not overlap.  The rest of the text is made of runs of
layout, joined line ends and comments, and of stretches that were given up on: each of these starts
where a token or a comment is abandoned, ends before a line end or with the text, and is the place
of exactly one remark.  There are no other remarks, so without any there is nothing but layout,
joined line ends and comments between the tokens. -/
theorem stretches_account_for_text (text : List Char) :
    (∀ t ∈ tokens text, t.start.offset < t.stop) ∧
    (tokens text).Pairwise (fun t u => t.stop ≤ u.start.offset) ∧
    ∃ parts, Accounts text parts ∧
      (∀ before remark raw behind, parts = before ++ .error remark raw :: behind →
        (tokenDiagnostics text).filter (·.standsBetween text (before.flatMap Stretch.raw).length
          ((before.flatMap Stretch.raw).length + raw.length)) = [remark]) ∧
      parts.countP Stretch.isError = (tokenDiagnostics text).length ∧
      (tokenDiagnostics text = [] → ∀ s ∈ parts, s.isError = false) := by
  have haccounts := accounts_ofPieces text
  refine ⟨fun t ht => start_lt_stop ht, tokens_sorted text, _, haccounts,
    fun _ _ _ _ hparts => haccounts.filter_remarks hparts, haccounts.countP_isError, ?_⟩
  intro hnone s hs
  have hcount := haccounts.countP_isError
  rw [hnone, List.length_nil, List.countP_eq_zero] at hcount
  simpa using hcount s hs

end CxxFloor
