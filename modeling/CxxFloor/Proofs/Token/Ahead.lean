/-
# How far recognition looks ahead

A recogniser looks at the text up to the end of the piece and at one or two
characters behind it.  So what is recognised at the start of a text that ends
with a line stays the same when more text follows (`recognise_append`).  The
line end has to be one that no backslash takes along, the text must not be
given up on, and it must not be layout alone, since layout would go on.
-/
import CxxFloor.Token.Stream
import Mathlib.Data.List.Find

namespace CxxFloor

def LineEnded (cs : List Char) : Prop := ∃ ds, cs = ds ++ ['\n'] ∧ ds.getLast? ≠ some '\\'

namespace LineEnded

variable {c : Char} {cs more : List Char}

theorem tail (h : LineEnded (c :: cs)) (hne : cs ≠ []) : LineEnded cs := by
  obtain ⟨ds, hds, hlast⟩ := h
  cases ds with
  | nil => exact absurd (List.cons.inj hds).2 hne
  | cons d ds =>
      refine ⟨ds, (List.cons.inj hds).2, ?_⟩
      intro h
      apply hlast
      cases ds with
      | nil => simp at h
      | cons d' ds => rw [List.getLast?_cons_cons]; exact h

theorem ne_nil (h : LineEnded cs) : cs ≠ [] := by
  obtain ⟨ds, rfl, -⟩ := h
  simp

theorem mem (h : LineEnded cs) : '\n' ∈ cs := by
  obtain ⟨ds, rfl, -⟩ := h
  simp

theorem drop (h : LineEnded cs) {n : Nat} (hn : n < cs.length) : LineEnded (cs.drop n) := by
  induction n generalizing cs with
  | zero => exact h
  | succ n ih =>
      cases cs with
      | nil => simp at hn
      | cons c cs =>
          have hn' : n < cs.length := by simpa using hn
          exact ih (h.tail (List.ne_nil_of_length_pos (by omega))) hn'

theorem lt_of_getElem? (h : LineEnded cs) {n : Nat} (hn : cs[n]? = some c) (hc : c ≠ '\n') :
    n + 1 < cs.length := by
  obtain ⟨ds, rfl, -⟩ := h
  obtain ⟨hlt, hget⟩ := List.getElem?_eq_some_iff.1 hn
  simp only [List.length_append, List.length_cons, List.length_nil] at hlt ⊢
  rcases Nat.lt_or_ge n ds.length with hlt' | hge
  · omega
  · obtain rfl : n = ds.length := by omega
    rw [List.getElem_append_right (Nat.le_refl _)] at hget
    simp only [Nat.sub_self, List.getElem_cons_zero] at hget
    exact absurd hget.symm hc

theorem tail_of_ne (h : LineEnded (c :: cs)) (hc : c ≠ '\n') : LineEnded cs := by
  refine h.tail ?_
  rintro rfl
  have hmem := h.mem
  exact hc (List.mem_singleton.1 hmem).symm

theorem behind_splice (h : LineEnded ('\\' :: '\n' :: cs)) : LineEnded cs := by
  refine (h.tail_of_ne (by decide)).tail ?_
  rintro rfl
  obtain ⟨ds, hds, hlast⟩ := h
  cases ds with
  | nil => simp at hds
  | cons d ds =>
      obtain ⟨rfl, hds⟩ := List.cons.inj hds
      cases ds with
      | nil => exact hlast rfl
      | cons d' ds => simp at hds

/-- What comes second is the same whatever follows. -/
theorem of_append_eq_cons {d : Char} {ds : List Char} (h : LineEnded (c :: cs)) (hc : c ≠ '\n')
    (heq : cs ++ more = d :: ds) : ∃ ds', cs = d :: ds' ∧ ds = ds' ++ more := by
  have hne := (h.tail_of_ne hc).ne_nil
  cases cs with
  | nil => exact absurd rfl hne
  | cons e cs =>
      obtain ⟨rfl, rfl⟩ := List.cons.inj heq
      exact ⟨cs, rfl, rfl⟩

end LineEnded

/-! ## Extents -/

namespace Extent

variable {cs more : List Char}

theorem lineComment_append (h : LineEnded cs) (more : List Char) :
    lineComment (cs ++ more) = lineComment cs := by
  fun_induction lineComment cs with
  | case1 => exact absurd rfl h.ne_nil
  | case2 rest ih =>
      rw [List.cons_append, List.cons_append, lineComment, ih h.behind_splice]
  | case3 rest => rfl
  | case4 c rest hsplice hend ih =>
      have hc : c ≠ '\n' := fun hc => hend hc
      rw [List.cons_append, lineComment, ih (h.tail_of_ne hc)]
      · intro rest' hc' heq
        obtain ⟨ds, hds, -⟩ := h.of_append_eq_cons hc heq
        exact hsplice ds hc' hds
      · exact hend

theorem lineComment_le (cs : List Char) : lineComment cs ≤ cs.length := by
  fun_induction lineComment cs with
  | case1 => exact Nat.le_refl 0
  | case2 rest ih =>
      simp only [List.length_cons]
      omega
  | case3 rest => exact Nat.zero_le _
  | case4 c rest hsplice hend ih =>
      simp only [List.length_cons]
      omega

theorem blockComment?_append {n : Nat} (h : blockComment? cs = some n) (more : List Char) :
    blockComment? (cs ++ more) = some n := by
  fun_induction blockComment? cs generalizing n with
  | case1 => cases h
  | case2 rest => exact h
  | case3 c rest hend ih =>
      obtain ⟨m, hm, rfl⟩ := Option.map_eq_some_iff.1 h
      rw [List.cons_append, blockComment?, ih hm]
      · rfl
      · intro rest' hc heq
        cases rest with
        | nil => cases hm
        | cons d rest =>
            obtain ⟨rfl, -⟩ := List.cons.inj heq
            exact hend rest hc rfl

theorem lt_of_blockComment? (h : LineEnded cs) {n : Nat} (hn : blockComment? cs = some n) :
    n < cs.length := by
  fun_induction blockComment? cs generalizing n with
  | case1 => cases hn
  | case2 rest =>
      cases hn
      have hrest := ((h.tail_of_ne (by decide)).tail_of_ne (by decide)).ne_nil
      have := List.length_pos_iff.2 hrest
      simp only [List.length_cons]
      omega
  | case3 c rest hend ih =>
      obtain ⟨m, hm, rfl⟩ := Option.map_eq_some_iff.1 hn
      have hrest : LineEnded rest := by
        refine h.tail ?_
        rintro rfl
        cases hm
      have := ih hrest hm
      simp only [List.length_cons]
      omega

theorem closed_of_shift {e : Extent} {k n : Nat} (h : e.shift k = closed n) :
    ∃ m, e = closed m ∧ n = k + m := by
  cases e with
  | closed m =>
      cases h
      exact ⟨m, rfl, rfl⟩
  | unclosed m => cases h

theorem ne_backslash {c : Char} (hnil : c = '\\' → cs = [] → False)
    (hcons : ∀ d ds, c = '\\' → cs = d :: ds → False) : c ≠ '\\' := by
  intro hc
  cases cs with
  | nil => exact hnil hc rfl
  | cons d ds => exact hcons d ds hc rfl

theorem quotation_cons {quote c : Char} (hend : c = '\n' → False) (hback : c ≠ '\\') :
    quotation quote (c :: cs) = if c = quote then closed 1 else (quotation quote cs).shift 1 := by
  rw [quotation]
  · exact hend
  · exact fun hc _ => hback hc
  · exact fun _ _ hc _ => hback hc

theorem quotation_append {quote : Char} {n : Nat} (h : quotation quote cs = closed n)
    (more : List Char) : quotation quote (cs ++ more) = closed n ∧ n ≤ cs.length := by
  fun_induction quotation quote cs generalizing n with
  | case1 => cases h
  | case2 rest => cases h
  | case3 => cases h
  | case4 d rest ih =>
      obtain ⟨m, hm, rfl⟩ := closed_of_shift h
      obtain ⟨hmore, hle⟩ := ih hm
      constructor
      · rw [List.cons_append, List.cons_append, quotation, hmore]
        · rfl
      · simp only [List.length_cons]
        omega
  | case5 rest hend hnil hcons =>
      have hback : quote ≠ '\\' := ne_backslash hnil hcons
      cases h
      rw [List.cons_append, quotation_cons hend hback, if_pos rfl]
      exact ⟨rfl, by simp⟩
  | case6 c rest hend hnil hcons hc ih =>
      have hback : c ≠ '\\' := ne_backslash hnil hcons
      obtain ⟨m, hm, rfl⟩ := closed_of_shift h
      obtain ⟨hmore, hle⟩ := ih hm
      rw [List.cons_append, quotation_cons hend hback, if_neg hc, hmore]
      exact ⟨rfl, by simp only [List.length_cons]; omega⟩

theorem isPrefixOf_append {p : List Char} (h : p.length ≤ cs.length) (more : List Char) :
    p.isPrefixOf (cs ++ more) = p.isPrefixOf cs := by
  rw [Bool.eq_iff_iff, List.isPrefixOf_iff_prefix, List.isPrefixOf_iff_prefix]
  constructor
  · intro hp
    exact List.prefix_of_prefix_length_le hp (List.prefix_append cs more) h
  · intro hp
    exact hp.trans (List.prefix_append cs more)

theorem isPrefixOf_append_of_lineEnded {p : List Char} (h : LineEnded cs) (hp : '\n' ∉ p)
    (more : List Char) : p.isPrefixOf (cs ++ more) = p.isPrefixOf cs := by
  by_cases hle : p.length ≤ cs.length
  · exact isPrefixOf_append hle more
  · rw [Bool.eq_iff_iff, List.isPrefixOf_iff_prefix, List.isPrefixOf_iff_prefix]
    constructor
    · intro hpre
      have hcs : cs <+: p := List.prefix_of_prefix_length_le (List.prefix_append cs more) hpre
        (by omega)
      exact absurd (hcs.subset h.mem) hp
    · intro hpre
      exact absurd hpre.length_le hle

theorem firstOccurrence?_append {p : List Char} (hp : p ≠ []) {n : Nat}
    (h : firstOccurrence? p cs = some n) (more : List Char) :
    firstOccurrence? p (cs ++ more) = some n ∧ n + p.length ≤ cs.length := by
  induction cs generalizing n with
  | nil =>
      unfold firstOccurrence? at h
      split at h
      next hempty => exact absurd (List.isEmpty_iff.1 hempty) hp
      next => cases h
  | cons c cs ih =>
      unfold firstOccurrence? at h
      split at h
      next hpre =>
        cases h
        have hle : p.length ≤ (c :: cs).length := (List.isPrefixOf_iff_prefix.1 hpre).length_le
        refine ⟨?_, by omega⟩
        have hmore := isPrefixOf_append hle more
        rw [List.cons_append] at hmore ⊢
        rw [firstOccurrence?, if_pos (hmore.trans hpre)]
      next hpre =>
        obtain ⟨m, hm, rfl⟩ := Option.map_eq_some_iff.1 h
        obtain ⟨hmore, hle⟩ := ih hm
        have hpre' : ¬ p.isPrefixOf (c :: (cs ++ more)) = true := by
          rw [← List.cons_append, isPrefixOf_append (by simp only [List.length_cons]; omega)]
          exact hpre
        rw [List.cons_append, firstOccurrence?, if_neg hpre', hmore]
        exact ⟨rfl, by simp only [List.length_cons]; omega⟩

theorem drop_length_takeWhile (p : Char → Bool) (cs : List Char) :
    cs.drop (cs.takeWhile p).length = cs.dropWhile p := by
  have hparts := List.take_append_drop (cs.takeWhile p).length cs
  rw [← List.prefix_iff_eq_take.1 (List.takeWhile_prefix p)] at hparts
  exact List.append_cancel_left (hparts.trans List.takeWhile_append_dropWhile.symm)

theorem takeWhile_append_of_mem {p : Char → Bool} {d : Char} (hd : d ∈ cs) (hp : p d = false)
    (more : List Char) : (cs ++ more).takeWhile p = cs.takeWhile p := by
  induction cs with
  | nil => simp at hd
  | cons c cs ih =>
      rw [List.cons_append, List.takeWhile_cons, List.takeWhile_cons]
      cases hc : p c with
      | false => rfl
      | true =>
          rcases List.mem_cons.1 hd with rfl | hd
          · rw [hp] at hc
            cases hc
          · rw [ih hd]

theorem rawDelimiter_append (h : LineEnded cs) (more : List Char) :
    rawDelimiter (cs ++ more) = rawDelimiter cs := by
  unfold rawDelimiter
  rw [takeWhile_append_of_mem h.mem (by decide)]

theorem numberTail_append {hexadecimal : Bool} {previous : Char} (h : LineEnded cs)
    (more : List Char) :
    numberTail hexadecimal previous (cs ++ more) = numberTail hexadecimal previous cs := by
  induction cs generalizing previous with
  | nil => exact absurd rfl h.ne_nil
  | cons c cs ih =>
      by_cases hc : c = '\n'
      · have hword : Text.continuesWord '\n' = false := by decide
        subst hc
        simp [numberTail, hword]
      · have hrest := h.tail_of_ne hc
        have hhead : (cs ++ more).head? = cs.head? := by
          cases cs with
          | nil => exact absurd rfl hrest.ne_nil
          | cons d cs => rfl
        rw [List.cons_append, numberTail, numberTail, hhead, ih hrest]

theorem numberTail_le {hexadecimal : Bool} {previous : Char} :
    numberTail hexadecimal previous cs ≤ cs.length := by
  induction cs generalizing previous with
  | nil => exact Nat.le_refl 0
  | cons c cs ih =>
      have : numberTail hexadecimal c cs ≤ cs.length := ih
      unfold numberTail
      rw [List.length_cons]
      repeat' split
      all_goals omega

theorem number_append (h : LineEnded cs) (more : List Char) (hcs : cs.head? ≠ some '\n') :
    number (cs ++ more) = number cs ∧ number cs ≤ cs.length := by
  cases cs with
  | nil => exact absurd rfl h.ne_nil
  | cons c cs =>
      have hrest := h.tail_of_ne fun hc => hcs (by rw [hc]; rfl)
      have hhex : startsHexadecimal (c :: cs ++ more) = startsHexadecimal (c :: cs) := by
        cases cs with
        | nil => exact absurd rfl hrest.ne_nil
        | cons d cs =>
            by_cases hc : c = '0'
            · subst hc
              rfl
            · simp [startsHexadecimal, hc]
      constructor
      · rw [List.cons_append] at hhex ⊢
        rw [number, number, hhex, numberTail_append hrest]
      · have : numberTail (startsHexadecimal (c :: cs)) c cs ≤ cs.length := numberTail_le
        rw [number, List.length_cons]
        omega

theorem word_append (h : LineEnded cs) (more : List Char) :
    word (cs ++ more) = word cs ∧ word cs ≤ cs.length := by
  unfold word
  rw [takeWhile_append_of_mem h.mem (by decide)]
  exact ⟨rfl, (List.takeWhile_prefix _).length_le⟩

end Extent

namespace DirectiveLine

open Extent

theorem extent_append {cs : List Char} (h : LineEnded cs) {n : Nat} (hn : extent cs = .closed n)
    (more : List Char) : extent (cs ++ more) = .closed n ∧ n ≤ cs.length := by
  fun_induction extent cs generalizing n with
  | case1 => exact absurd rfl h.ne_nil
  | case2 rest =>
      cases hn
      exact ⟨by rw [List.cons_append, extent], Nat.zero_le _⟩
  | case3 rest ih =>
      obtain ⟨m, hm, rfl⟩ := closed_of_shift hn
      obtain ⟨hmore, hle⟩ := ih h.behind_splice hm
      rw [List.cons_append, List.cons_append, extent, hmore]
      exact ⟨rfl, by simp only [List.length_cons]; omega⟩
  | case4 rest =>
      cases hn
      have hrest := (h.tail_of_ne (by decide)).tail_of_ne (by decide)
      rw [List.cons_append, List.cons_append, extent, lineComment_append hrest]
      refine ⟨rfl, ?_⟩
      have := lineComment_le rest
      simp only [List.length_cons]
      omega
  | case5 rest m hm ih =>
      obtain ⟨k, hk, rfl⟩ := closed_of_shift hn
      have hrest := (h.tail_of_ne (by decide)).tail_of_ne (by decide)
      have hlt := lt_of_blockComment? hrest hm
      obtain ⟨hmore, hle⟩ := ih (hrest.drop hlt) hk
      rw [List.cons_append, List.cons_append, extent, blockComment?_append hm]
      rw [List.length_drop] at hle
      refine ⟨?_, by simp only [List.length_cons]; omega⟩
      show shift (2 + m) (extent ((rest ++ more).drop m)) = _
      rw [List.drop_append_of_le_length (Nat.le_of_lt hlt), hmore]
      rfl
  | case6 rest hnone => cases hn
  | case7 c rest hend hsplice hline hblock ih =>
      obtain ⟨m, hm, rfl⟩ := closed_of_shift hn
      have hc : c ≠ '\n' := fun hc => hend hc
      obtain ⟨hmore, hle⟩ := ih (h.tail_of_ne hc) hm
      refine ⟨?_, by simp only [List.length_cons]; omega⟩
      rw [List.cons_append, extent, hmore]
      · rfl
      · exact hend
      · intro ds hback heq
        obtain ⟨ds', hds, -⟩ := h.of_append_eq_cons hc heq
        exact hsplice ds' hback hds
      · intro ds hslash heq
        obtain ⟨ds', hds, -⟩ := h.of_append_eq_cons hc heq
        exact hline ds' hslash hds
      · intro ds hslash heq
        obtain ⟨ds', hds, -⟩ := h.of_append_eq_cons hc heq
        exact hblock ds' hslash hds

end DirectiveLine

/-! ## Pieces -/

namespace Piece

open Extent

/-- The recognised piece is not given up on. -/
def Intact (r : PieceKind × Nat) : Prop := ∀ fault place, r.1 ≠ .faulty fault place

variable {cs : List Char}

theorem not_intact_faultyOf {fault : Fault} {place read : Nat} :
    ¬ Intact (faultyOf fault place read cs) :=
  fun h => h fault place rfl

theorem tokenOf_append {kind : TokenKind} {n : Nat} (h : n ≤ cs.length) (more : List Char) :
    tokenOf kind (cs ++ more) n = tokenOf kind cs n := by
  unfold tokenOf
  rw [List.take_append_of_le_length h]

theorem trivia?_cons {c : Char} (hsplice : ∀ ds, c = '\\' → cs = '\n' :: ds → False)
    (hline : ∀ ds, c = '/' → cs = '/' :: ds → False)
    (hblock : ∀ ds, c = '/' → cs = '*' :: ds → False) :
    trivia? (c :: cs) = if Text.isLayout c then
      some (.layout, 1 + (cs.takeWhile Text.isLayout).length) else none := by
  rw [trivia?]
  · exact hsplice
  · exact hline
  · exact hblock

theorem trivia?_append (h : LineEnded cs) {d : Char} (hd : d ∈ cs)
    (hlayout : Text.isLayout d = false) (hintact : ∀ r, trivia? cs = some r → Intact r)
    (more : List Char) : trivia? (cs ++ more) = trivia? cs := by
  unfold trivia? at hintact
  split at hintact
  next => rfl
  next rest =>
    have hrest := (h.tail_of_ne (by decide)).tail_of_ne (by decide)
    show some (PieceKind.lineComment, 2 + lineComment (rest ++ more)) = _
    rw [lineComment_append hrest]
    rfl
  next rest =>
    cases hn : blockComment? rest with
    | some n => simp only [List.cons_append, trivia?, hn, blockComment?_append hn]
    | none =>
        rw [hn] at hintact
        exact absurd (hintact _ rfl) not_intact_faultyOf
  next c rest hsplice hline hblock =>
    rw [List.cons_append, trivia?_cons hsplice hline hblock]
    by_cases hc : Text.isLayout c = true
    · have hmem : d ∈ rest := by
        rcases List.mem_cons.1 hd with rfl | hmem
        · rw [hlayout] at hc
          cases hc
        · exact hmem
      have hne : rest ≠ [] := List.ne_nil_of_mem hmem
      have hslash : c ≠ '/' := by
        rintro rfl
        exact absurd hc (by decide)
      have hback : c ≠ '\\' := by
        rintro rfl
        exact absurd hc (by decide)
      rw [trivia?_cons (fun _ hc _ => hback hc) (fun _ hc _ => hslash hc)
        (fun _ hc _ => hslash hc), takeWhile_append_of_mem hmem hlayout]
    · have hend : c ≠ '\n' := by
        rintro rfl
        exact hc (by decide)
      rw [trivia?_cons, if_neg hc, if_neg hc]
      · intro ds hback heq
        obtain ⟨ds', hds, -⟩ := h.of_append_eq_cons hend heq
        exact hsplice ds' hback hds
      · intro ds hslash heq
        obtain ⟨ds', hds, -⟩ := h.of_append_eq_cons hend heq
        exact hline ds' hslash hds
      · intro ds hslash heq
        obtain ⟨ds', hds, -⟩ := h.of_append_eq_cons hend heq
        exact hblock ds' hslash hds
  next => exact absurd rfl h.ne_nil

theorem directive_append (h : LineEnded cs) (hintact : Intact (directive cs)) (more : List Char) :
    directive (cs ++ more) = directive cs := by
  unfold directive at hintact ⊢
  cases hn : DirectiveLine.extent cs with
  | closed n =>
      obtain ⟨hmore, hle⟩ := DirectiveLine.extent_append h hn more
      rw [hmore]
      simp only [List.take_append_of_le_length hle]
  | unclosed n =>
      rw [hn] at hintact
      exact absurd hintact not_intact_faultyOf

theorem getElem?_append_of_isPrefixOf {p : List Char} (h : LineEnded cs) (hp : '\n' ∉ p)
    (hpre : p.isPrefixOf cs = true) (more : List Char) :
    (cs ++ more)[p.length]? = cs[p.length]? ∧ p.length < cs.length := by
  have hpre' := List.isPrefixOf_iff_prefix.1 hpre
  have hlt : p.length < cs.length := by
    refine Nat.lt_of_le_of_ne hpre'.length_le ?_
    intro heq
    have : p = cs := hpre'.eq_of_length heq
    exact hp (this ▸ h.mem)
  exact ⟨List.getElem?_append_left hlt, hlt⟩

theorem newline_notMem_encodingPrefixes {p : List Char} (hp : p ∈ encodingPrefixes) : '\n' ∉ p := by
  have h : ∀ p ∈ encodingPrefixes, '\n' ∉ p := by decide
  exact h p hp

theorem literalPrefix?_append (h : LineEnded cs) (more : List Char) :
    literalPrefix? (cs ++ more) = literalPrefix? cs := by
  unfold literalPrefix?
  refine List.find?_congr fun p hp => ?_
  have hnew := newline_notMem_encodingPrefixes hp
  rw [isPrefixOf_append_of_lineEnded h hnew]
  cases hpre : p.isPrefixOf cs with
  | false => rfl
  | true => rw [(getElem?_append_of_isPrefixOf h hnew hpre more).1]

theorem quotation_append {before : Nat} (hlt : before < cs.length) {quote : Char}
    (hintact : Intact (quotation before quote cs)) (more : List Char) :
    quotation before quote (cs ++ more) = quotation before quote cs := by
  unfold quotation at hintact ⊢
  rw [List.drop_append_of_le_length hlt]
  cases hn : Extent.quotation quote (cs.drop (before + 1)) with
  | closed n =>
      obtain ⟨hmore, hle⟩ := Extent.quotation_append hn more
      rw [List.length_drop] at hle
      rw [hmore]
      exact tokenOf_append (by omega) more
  | unclosed n =>
      rw [hn] at hintact
      exact absurd hintact not_intact_faultyOf

theorem rawString_append (h : LineEnded cs) {before : Nat} (hlt : before + 1 < cs.length)
    (hintact : Intact (rawString before cs)) (more : List Char) :
    rawString before (cs ++ more) = rawString before cs := by
  have hinside : LineEnded (cs.drop (before + 1)) := h.drop hlt
  have hdrop : (cs ++ more).drop (before + 1) = cs.drop (before + 1) ++ more :=
    List.drop_append_of_le_length (by omega)
  unfold rawString at hintact ⊢
  dsimp only at hintact ⊢
  rw [hdrop, rawDelimiter_append hinside]
  generalize hdelimiter : rawDelimiter (cs.drop (before + 1)) = delimiter at hintact ⊢
  have hle : delimiter.length ≤ (cs.drop (before + 1)).length := by
    rw [← hdelimiter]
    unfold rawDelimiter
    exact Nat.le_trans (List.take_prefix _ _).length_le (List.takeWhile_prefix _).length_le
  rw [List.drop_append_of_le_length hle]
  split at hintact
  next body hbody =>
    rw [hbody]
    cases hn : firstOccurrence? (rawTerminator delimiter) body with
    | none =>
        rw [hn] at hintact
        exact absurd hintact not_intact_faultyOf
    | some n =>
        obtain ⟨hmore, hle'⟩ := firstOccurrence?_append (by simp [rawTerminator]) hn more
        rw [List.cons_append]
        split
        next body' heq =>
          obtain rfl : body ++ more = body' := (List.cons.inj heq).2
          rw [hmore]
          have hlength := congrArg List.length hbody
          simp only [List.length_drop, List.length_cons] at hlength
          simp only [rawTerminator, List.length_append, List.length_cons, List.length_nil] at hle'
          exact tokenOf_append (by omega) more
        next hopen => exact absurd rfl (hopen (body ++ more))
  next => exact absurd hintact not_intact_faultyOf

theorem prefixed_append (h : LineEnded cs) {p : List Char} (hlt : p.length + 1 < cs.length)
    (hintact : Intact (prefixed p cs)) (more : List Char) :
    prefixed p (cs ++ more) = prefixed p cs := by
  unfold prefixed at hintact ⊢
  split
  next hraw =>
    rw [if_pos hraw] at hintact
    exact rawString_append h hlt hintact more
  next hraw =>
    rw [if_neg hraw] at hintact
    rw [List.getElem?_append_left (by omega)]
    exact quotation_append (by omega) hintact more

theorem punctuator_append (h : LineEnded cs) {c : Char} (hintact : Intact (punctuator c cs))
    (more : List Char) : punctuator c (cs ++ more) = punctuator c cs := by
  have hfind : longPunctuators.find? (·.isPrefixOf (cs ++ more))
      = longPunctuators.find? (·.isPrefixOf cs) := by
    have hnew : ∀ p ∈ longPunctuators, '\n' ∉ p := by decide
    exact List.find?_congr fun p hp => isPrefixOf_append_of_lineEnded h (hnew p hp) more
  unfold punctuator at hintact ⊢
  rw [hfind]
  cases hp : longPunctuators.find? (·.isPrefixOf cs) with
  | some p =>
      have hpre : p.isPrefixOf cs = true := by simpa using List.find?_some hp
      exact tokenOf_append (List.isPrefixOf_iff_prefix.1 hpre).length_le more
  | none =>
      rw [hp] at hintact
      dsimp only at hintact ⊢
      split
      next => exact tokenOf_append (List.length_pos_iff.2 h.ne_nil) more
      next hshort =>
        rw [if_neg hshort] at hintact
        exact absurd hintact not_intact_faultyOf

theorem startsNumber_append {c : Char} (h : LineEnded (c :: cs)) (hc : c ≠ '\n')
    (more : List Char) : startsNumber (c :: cs ++ more) = startsNumber (c :: cs) := by
  have hne := (h.tail_of_ne hc).ne_nil
  cases cs with
  | nil => exact absurd rfl hne
  | cons d cs =>
      by_cases hdot : c = '.'
      · subst hdot
        rfl
      · simp [startsNumber, hdot]

theorem token_append {fresh : Bool} {c : Char} (h : LineEnded (c :: cs)) (hc : c ≠ '\n')
    (hintact : Intact (token fresh c (c :: cs))) (more : List Char) :
    token fresh c (c :: cs ++ more) = token fresh c (c :: cs) := by
  unfold token at hintact ⊢
  rw [literalPrefix?_append h, startsNumber_append h hc]
  split
  next hdirective =>
    rw [if_pos hdirective] at hintact
    exact directive_append h hintact more
  next hdirective =>
    rw [if_neg hdirective] at hintact
    cases hp : literalPrefix? (c :: cs) with
    | some p =>
        rw [hp] at hintact
        have hmem := List.mem_of_find?_eq_some hp
        have hprefix := List.find?_some hp
        rw [Bool.and_eq_true] at hprefix
        have hlt : p.length + 1 < (c :: cs).length := by
          cases hq : (c :: cs)[p.length]? with
          | none =>
              rw [hq] at hprefix
              exact absurd hprefix.2 (by simp)
          | some q =>
              refine h.lt_of_getElem? hq ?_
              rintro rfl
              rw [hq] at hprefix
              exact absurd hprefix.2 (by simp [Text.singleQuote])
        exact prefixed_append h hlt hintact more
    | none =>
        rw [hp] at hintact
        dsimp only at hintact ⊢
        split
        next =>
          obtain ⟨hword, hle⟩ := word_append h more
          rw [hword]
          exact tokenOf_append hle more
        next hword =>
          rw [if_neg hword] at hintact
          split
          next =>
            obtain ⟨hnumber, hle⟩ := number_append h more (by simpa using hc)
            rw [hnumber]
            exact tokenOf_append hle more
          next hnumber =>
            rw [if_neg hnumber] at hintact
            split
            next hquote =>
              rw [if_pos hquote] at hintact
              exact quotation_append (by simp) hintact more
            next hquote =>
              rw [if_neg hquote] at hintact
              exact punctuator_append h hintact more

/-- What is recognised at the start of a text with a last line is the same whatever follows, unless
it is given up on or all that is left is layout. -/
theorem recognise_append {fresh : Bool} {c : Char} (h : LineEnded (c :: cs)) {d : Char}
    (hd : d ∈ c :: cs) (hlayout : Text.isLayout d = false)
    (hintact : Intact (recognise fresh c (c :: cs))) (more : List Char) :
    recognise fresh c (c :: cs ++ more) = recognise fresh c (c :: cs) := by
  unfold recognise at hintact ⊢
  cases htrivia : trivia? (c :: cs) with
  | some r =>
      rw [htrivia] at hintact
      have hmore := trivia?_append h hd hlayout (by
        intro r' hr'
        rw [htrivia] at hr'
        cases hr'
        exact hintact) more
      rw [hmore, htrivia]
      rfl
  | none =>
      rw [htrivia] at hintact
      have hmore := trivia?_append h hd hlayout (by
        intro r' hr'
        rw [htrivia] at hr'
        cases hr') more
      rw [hmore, htrivia]
      refine token_append h ?_ hintact more
      rintro rfl
      rw [trivia?_cons (by simp) (by simp) (by simp)] at htrivia
      cases htrivia

end Piece

end CxxFloor
