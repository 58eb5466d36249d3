/-
# What stands between tokens

Between tokens there are layout, joined line ends and comments.  `Trivia` says
what these are without reading a text: a line comment goes on to the end of
its line, a line end behind a backslash not counted (`EndsLine`), and a block
comment to the first `*/`.  A line comment ends where a line ends, so whether a
text is trivia depends on what follows it.

What is skipped is trivia (`Trivia.of_trivia?`), and where the end of a block
comment is not found there is none (`Extent.not_infix_of_blockComment?`).
-/
import CxxFloor.Proofs.Token.Ahead

namespace CxxFloor

/-- The body of a line comment and the text after it: the body takes a line end along only behind
a backslash, and it ends before a line end without one or with the text. -/
structure EndsLine (body after : List Char) : Prop where
  joined : ∀ before behind, body = before ++ '\n' :: behind → before.getLast? = some '\\'
  ends : after = [] ∨ after.head? = some '\n' ∧ body.getLast? ≠ some '\\'

/-- The text `cs`, with `after` behind it, is made of layout, joined line ends and comments. -/
inductive Trivia (after : List Char) : List Char → Prop
  | nil : Trivia after []
  | layout {c : Char} {cs : List Char} (hc : Text.isLayout c = true) (h : Trivia after cs) :
      Trivia after (c :: cs)
  | splice {cs : List Char} (h : Trivia after cs) : Trivia after ('\\' :: '\n' :: cs)
  | lineComment {body cs : List Char} (hbody : EndsLine body (cs ++ after)) (h : Trivia after cs) :
      Trivia after ('/' :: '/' :: (body ++ cs))
  | blockComment {body cs : List Char} (hbody : ¬ ['*', '/'] <:+: body) (h : Trivia after cs) :
      Trivia after ('/' :: '*' :: (body ++ '*' :: '/' :: cs))

/-! ## Line comments -/

namespace EndsLine

variable {body after : List Char}

/-- A line end that is taken along stands behind a backslash, so not in front. -/
theorem head?_ne (h : EndsLine body after) : body.head? ≠ some '\n' := by
  intro hhead
  obtain ⟨behind, rfl⟩ := List.head?_eq_some_iff.1 hhead
  cases h.joined [] behind rfl

theorem splice (h : EndsLine body after) : EndsLine ('\\' :: '\n' :: body) after := by
  constructor
  · intro before behind heq
    match before, heq with
    | [_], heq =>
        obtain ⟨rfl, -⟩ := List.cons_eq_cons.1 heq
        rfl
    | _ :: _ :: before, heq =>
        obtain ⟨-, heq⟩ := List.cons_eq_cons.1 heq
        obtain ⟨-, heq⟩ := List.cons_eq_cons.1 heq
        rw [List.getLast?_cons_cons, List.getLast?_cons, h.joined before behind heq]
        rfl
  · rcases h.ends with hnil | ⟨hfeed, hlast⟩
    · exact .inl hnil
    · refine .inr ⟨hfeed, ?_⟩
      rw [List.getLast?_cons_cons, List.getLast?_cons]
      cases hbody : body.getLast? with
      | none => simp
      | some c => simpa [hbody] using hlast

/-- A character in front of the body, a backslash only if no line end follows. -/
theorem cons {c : Char} (h : EndsLine body after) (hc : c ≠ '\n')
    (hback : c = '\\' → (body ++ after).head? ≠ some '\n') : EndsLine (c :: body) after := by
  constructor
  · intro before behind heq
    match before, heq with
    | [], heq => exact absurd (List.cons_eq_cons.1 heq).1 hc
    | [_], heq => exact absurd (by rw [(List.cons_eq_cons.1 heq).2]; rfl) h.head?_ne
    | _ :: d :: before, heq =>
        have hlast := h.joined (d :: before) behind (List.cons_eq_cons.1 heq).2
        rwa [List.getLast?_cons_cons]
  · rcases h.ends with hnil | ⟨hfeed, hlast⟩
    · exact .inl hnil
    · refine .inr ⟨hfeed, ?_⟩
      cases body with
      | nil =>
          intro hlast
          exact hback (Option.some.inj hlast) hfeed
      | cons d body => rwa [List.getLast?_cons_cons]

end EndsLine

theorem Extent.endsLine_lineComment (cs : List Char) :
    EndsLine (cs.take (lineComment cs)) (cs.drop (lineComment cs)) := by
  fun_induction lineComment cs with
  | case1 => exact ⟨by simp, .inl rfl⟩
  | case2 rest ih =>
      rw [Nat.add_comm, List.take_succ_cons, List.take_succ_cons, List.drop_succ_cons,
        List.drop_succ_cons]
      exact ih.splice
  | case3 => exact ⟨by simp, .inr ⟨rfl, by simp⟩⟩
  | case4 c rest hsplice hfeed ih =>
      rw [Nat.add_comm, List.take_succ_cons, List.drop_succ_cons]
      refine ih.cons hfeed fun hback hhead => ?_
      rw [List.take_append_drop] at hhead
      obtain ⟨rest', hrest⟩ := List.head?_eq_some_iff.1 hhead
      exact hsplice rest' hback hrest

/-! ## Block comments -/

/-- The two characters that end a block comment stand where it says, and nowhere before. -/
theorem Extent.of_blockComment? {cs : List Char} {n : Nat} (h : blockComment? cs = some n) :
    ∃ body after, cs = body ++ '*' :: '/' :: after ∧ n = body.length + 2 ∧
      ¬ ['*', '/'] <:+: body := by
  fun_induction blockComment? cs generalizing n with
  | case1 => cases h
  | case2 rest =>
      obtain rfl := Option.some.inj h
      exact ⟨[], rest, rfl, rfl, by simp⟩
  | case3 c rest hclose ih =>
      obtain ⟨m, hm, rfl⟩ := Option.map_eq_some_iff.1 h
      obtain ⟨body, after, rfl, rfl, hbody⟩ := ih hm
      refine ⟨c :: body, after, rfl, by rw [List.length_cons]; omega, fun hinfix => ?_⟩
      rcases List.infix_cons_iff.1 hinfix with ⟨behind, heq⟩ | hinfix
      · obtain ⟨rfl, hslash⟩ := List.cons_eq_cons.1 heq
        cases body with
        | nil => cases hslash
        | cons d body =>
            obtain ⟨rfl, -⟩ := List.cons_eq_cons.1 hslash
            exact hclose _ rfl rfl
      · exact hbody hinfix

theorem Extent.not_infix_of_blockComment? {cs : List Char} (h : blockComment? cs = none) :
    ¬ ['*', '/'] <:+: cs := by
  fun_induction blockComment? cs with
  | case1 => simp
  | case2 => cases h
  | case3 c rest hclose ih =>
      intro hinfix
      rcases List.infix_cons_iff.1 hinfix with ⟨behind, heq⟩ | hinfix
      · obtain ⟨rfl, hrest⟩ := List.cons_eq_cons.1 heq
        exact hclose behind rfl hrest.symm
      · exact ih (Option.map_eq_none_iff.1 h) hinfix

/-! ## What is skipped -/

/-- The kinds of piece that are no token and no fault. -/
def PieceKind.isTrivia : PieceKind → Bool
  | .layout | .splice | .lineComment | .blockComment => true
  | _ => false

namespace Trivia

theorem append {after cs ds : List Char} (hcs : Trivia (ds ++ after) cs) (hds : Trivia after ds) :
    Trivia after (cs ++ ds) := by
  induction hcs with
  | nil => exact hds
  | layout hc _ ih => exact .layout hc ih
  | splice _ ih => exact .splice ih
  | lineComment hbody _ ih =>
      rw [← List.append_assoc] at hbody
      simpa using Trivia.lineComment hbody ih
  | blockComment hbody _ ih =>
      simpa using Trivia.blockComment hbody ih

theorem of_isLayout {after cs : List Char} (h : ∀ c ∈ cs, Text.isLayout c = true) :
    Trivia after cs := by
  induction cs with
  | nil => exact .nil
  | cons c cs ih =>
      exact .layout (h c List.mem_cons_self) (ih fun d hd => h d (List.mem_cons_of_mem _ hd))

theorem of_trivia? {cs : List Char} {kind : PieceKind} {n : Nat}
    (h : Piece.trivia? cs = some (kind, n)) (hkind : kind.isTrivia = true) :
    0 < n ∧ Trivia (cs.drop n) (cs.take n) := by
  unfold Piece.trivia? at h
  split at h
  next rest =>
    cases h
    exact ⟨by decide, .splice .nil⟩
  next rest =>
    cases h
    have hbody := Extent.endsLine_lineComment rest
    have hcomment : Trivia _ ('/' :: '/' :: (rest.take (Extent.lineComment rest) ++ [])) :=
      .lineComment hbody .nil
    rw [List.append_nil] at hcomment
    rw [Nat.add_comm, List.take_succ_cons, List.take_succ_cons, List.drop_succ_cons,
      List.drop_succ_cons]
    exact ⟨Nat.succ_pos _, hcomment⟩
  next rest =>
    split at h
    next m hm =>
      cases h
      obtain ⟨body, behind, rfl, rfl, hbody⟩ := Extent.of_blockComment? hm
      have htake : ('/' :: '*' :: (body ++ '*' :: '/' :: behind)).take (2 + (body.length + 2))
          = '/' :: '*' :: (body ++ ['*', '/']) := by
        rw [Nat.add_comm, List.take_succ_cons, List.take_succ_cons, List.take_length_add_append]
        rfl
      rw [htake]
      exact ⟨by omega, .blockComment hbody .nil⟩
    next =>
      cases h
      cases hkind
  next c rest _ _ _ =>
    split at h
    next hc =>
      cases h
      rw [Nat.add_comm, List.take_succ_cons]
      refine ⟨Nat.succ_pos _, .layout hc (of_isLayout fun d hd => ?_)⟩
      rw [← List.prefix_iff_eq_take.1 (List.takeWhile_prefix _)] at hd
      exact List.all_eq_true.1 List.all_takeWhile d hd
    next => cases h
  next => cases h

end Trivia

end CxxFloor
