/-
# Two files in a row

The lexemes of complete declarations, and those of another file behind them:
each of the two files is embedded in both.  So the walk over both makes the
steps of the first and then those of the second, moved
(`Complete.stepsFrom_append`), and the cuts of both are the cuts of the first
and then those of the second, moved (`cutsOf_append`).
-/
import CxxFloor.Proofs.Bracket.Concatenation
import CxxFloor.Proofs.Embedding.Step
import CxxFloor.Proofs.Fragment.Window
import CxxFloor.Proofs.Scope.Completion

namespace CxxFloor

namespace ScanState

variable {b : Bracketed} {d n : Nat} {s s' : ScanState}

/-- A walk starts alike wherever nothing is open and a statement is about to start. -/
theorem moved_start (hscopes : s'.scopes = []) (hgroups : s'.groups = []) (hhead : s'.head = d)
    (hannounced : s'.AnnouncedBefore d)
    (hrecords : (∃ i, b.wordInAt i sizeQueries = true) → s'.forward = [] ∧ s'.completed = []) :
    ({} : ScanState).Moved b d s' where
  scopes := hscopes
  groups := hgroups
  head := hhead
  lambdaBodies := ⟨s'.lambdaBodies, rfl, hannounced.bodies⟩
  constantOpeners := ⟨s'.constantOpeners, rfl, hannounced.constants⟩
  lambdaParameters := ⟨s'.lambdaParameters, rfl, hannounced.parameters⟩
  records := hrecords

theorem lt_of_mem_moved {os old : List Nat} (hos : ∀ o ∈ os, o < n) (hold : ∀ o ∈ old, o < d) :
    ∀ o ∈ os.map (d + ·) ++ old, o < d + n := by
  intro o ho
  rcases List.mem_append.1 ho with ho | ho
  · obtain ⟨p, hp, rfl⟩ := List.mem_map.1 ho
    exact Nat.add_lt_add_left (hos p hp) d
  · exact Nat.lt_of_lt_of_le (hold o ho) (Nat.le_add_right d n)

theorem Moved.announcedBefore (hm : s.Moved b d s') (h : s.AnnouncedBefore n) :
    s'.AnnouncedBefore (d + n) := by
  obtain ⟨bodies, hbodies, holdBodies⟩ := hm.lambdaBodies
  obtain ⟨constants, hconstants, holdConstants⟩ := hm.constantOpeners
  obtain ⟨parameters, hparameters, holdParameters⟩ := hm.lambdaParameters
  refine ⟨?_, hconstants ▸ lt_of_mem_moved h.constants holdConstants,
    hparameters ▸ lt_of_mem_moved h.parameters holdParameters⟩
  intro body hbody
  rw [hbodies] at hbody
  rcases List.mem_append.1 hbody with hbody | hbody
  · obtain ⟨body, hmem, rfl⟩ := List.mem_map.1 hbody
    exact Nat.add_lt_add_left (h.bodies body hmem) d
  · exact Nat.lt_of_lt_of_le (holdBodies body hbody) (Nat.le_add_right d n)

end ScanState

namespace Bracketed

variable (ts : List Lexeme) (i : Nat)

theorem at?_ofLexemes : (ofLexemes ts.toArray).at? i = ts[i]? := by
  simp [at?, ofLexemes]

theorem size_ofLexemes : (ofLexemes ts.toArray).size = ts.length := rfl

theorem partner?_ofLexemes :
    (ofLexemes ts.toArray).pairs.partner? i = (Pairing.ofLexemes ts).partner? i := rfl

end Bracketed

/-- Lexemes that make complete declarations: their brackets are paired, they start with a word and
end with a semicolon, and no `requires` is among them. -/
structure Complete (us : List Lexeme) : Prop where
  balanced : (Matching.ofLexemes us).allOrphans = []
  first : ∃ t, us.head? = some t ∧ t.isName = true
  last : ∃ t, us.getLast? = some t ∧ t.isPunct ";" = true
  unconstrained : ∀ t ∈ us, t.isWord "requires" = false

def StartsWithWord (us : List Lexeme) : Prop := ∀ t, us.head? = some t → t.isName = true

theorem StartsWithWord.nameAt_zero {us : List Lexeme} (h : StartsWithWord us)
    (hpos : 0 < us.length) : (Bracketed.ofLexemes us.toArray).nameAt 0 = true := by
  cases us with
  | nil => simp at hpos
  | cons t us =>
      rw [Bracketed.nameAt, Bracketed.at?_ofLexemes]
      exact h t rfl

namespace Complete

variable {us vs : List Lexeme}

theorem startsWithWord (h : Complete us) : StartsWithWord us := by
  intro t ht
  obtain ⟨u, hu, hname⟩ := h.first
  rw [ht] at hu
  cases hu
  exact hname

theorem pos (h : Complete us) : 0 < us.length := by
  obtain ⟨t, ht, -⟩ := h.first
  exact List.length_pos_of_mem (List.mem_of_head? ht)

theorem punctAt_last (h : Complete us) :
    (Bracketed.ofLexemes us.toArray).punctAt (us.length - 1) ";" = true := by
  obtain ⟨t, ht, hp⟩ := h.last
  refine Bracketed.punctAt_iff.2 ⟨t, ?_, hp⟩
  rw [Bracketed.at?_ofLexemes, ← List.getLast?_eq_getElem?, ht]

theorem closed (h : Complete us) : (Bracketed.ofLexemes us.toArray).Closed where
  last := h.punctAt_last
  unconstrained := by
    intro i
    refine Bool.eq_false_iff.2 ?_
    intro hword
    rw [Bracketed.wordAt, Bracketed.at?_ofLexemes] at hword
    obtain ⟨t, ht, hrequires⟩ := (Option.any_eq_true _ _).1 hword
    rw [h.unconstrained t (List.mem_of_getElem? ht)] at hrequires
    cases hrequires

theorem embeds_left (h : Complete us) (vs : List Lexeme) :
    (Bracketed.ofLexemes us.toArray).Embeds (Bracketed.ofLexemes (us ++ vs).toArray) 0 where
  nested := Bracketed.nested_ofLexemes _
  nested' := Bracketed.nested_ofLexemes _
  at?_of_lt := by
    intro i hi
    rw [Bracketed.at?_ofLexemes, Bracketed.at?_ofLexemes, Nat.zero_add,
      List.getElem?_append_left (Bracketed.size_ofLexemes us ▸ hi)]
  partner?_of_lt := by
    intro i hi
    rw [Bracketed.partner?_ofLexemes, Bracketed.partner?_ofLexemes, Nat.zero_add,
      Pairing.partner?_append_left h.balanced vs hi]
    cases (Pairing.ofLexemes us).partner? i <;> simp
  size_le := by simp [Bracketed.size_ofLexemes]
  before := Or.inl rfl
  first := fun hpos => h.startsWithWord.nameAt_zero hpos
  behind := Or.inr h.closed

theorem lt_of_stepCut (h : Complete us) {head i first last : Nat} {kind : FragmentKind}
    (hcut : StepCut (.ofLexemes us.toArray) head i kind first last) (hi : i < us.length) :
    last + 1 < us.length := by
  -- with anything behind the declarations, what is in sight stands among them
  rcases hcut.visible (h.embeds_left [⟨.word, ""⟩]) hi with hlt | hsize
  · exact hlt
  · simp [Bracketed.size_ofLexemes] at hsize

/-- A file that starts with a word, if with anything, is embedded behind complete declarations. -/
theorem embeds_right (h : Complete us) (hvs : StartsWithWord vs) :
    (Bracketed.ofLexemes vs.toArray).Embeds (Bracketed.ofLexemes (us ++ vs).toArray)
      us.length where
  nested := Bracketed.nested_ofLexemes _
  nested' := Bracketed.nested_ofLexemes _
  at?_of_lt := by
    intro i hi
    rw [Bracketed.at?_ofLexemes, Bracketed.at?_ofLexemes,
      List.getElem?_append_right (Nat.le_add_right _ _), Nat.add_sub_cancel_left]
  partner?_of_lt := by
    intro i hi
    rw [Bracketed.partner?_ofLexemes, Bracketed.partner?_ofLexemes,
      Pairing.partner?_append_right h.balanced vs i]
  size_le := by simp [Bracketed.size_ofLexemes]
  before := by
    have hpos := h.pos
    have hlast := h.punctAt_last
    rw [Bracketed.punctAt, Bracketed.at?_ofLexemes] at hlast
    refine Or.inr ?_
    rw [Bracketed.punctAt, Bracketed.at?_ofLexemes, List.getElem?_append_left (by omega)]
    exact hlast
  first := fun hpos => hvs.nameAt_zero hpos
  behind := Or.inl (by simp [Bracketed.size_ofLexemes])

/-! ## Steps -/

theorem map_shift_zero (steps : List (Nat × List Cut)) :
    steps.map (fun e => (0 + e.1, e.2.map (Cut.shift 0 0))) = steps := by
  have hcut : Cut.shift 0 0 = id := by
    funext cut
    cases cut <;> simp [Cut.shift]
  simp [hcut]

/-- The walk over both files makes the steps of the first and those of the second, moved. -/
theorem stepsFrom_append (h : Complete us) (hvs : StartsWithWord vs)
    (hqueries : ∀ t ∈ vs, t.isWordIn sizeQueries = false) (k : Nat) :
    stepsFrom (Bracketed.ofLexemes (us ++ vs).toArray) 0 {} =
      stepsFrom (Bracketed.ofLexemes us.toArray) 0 {} ++
        (stepsFrom (Bracketed.ofLexemes vs.toArray) 0 {}).map fun e =>
          (us.length + e.1, e.2.map (Cut.shift us.length k)) := by
  have hleft := h.embeds_left vs
  have hright := h.embeds_right hvs
  have hstart : ({} : ScanState).Moved (Bracketed.ofLexemes us.toArray) 0 {} :=
    ScanState.moved_start rfl rfl rfl ⟨by simp, by simp, by simp⟩ fun _ => ⟨rfl, rfl⟩
  obtain ⟨t, t', hend, hmoved, hsteps⟩ := CxxFloor.stepsFrom_append hleft .start 0 hstart
  obtain ⟨hscopes, hgroups, hhead⟩ := hend.at_end hleft.nested h.punctAt_last
  have hannounced := hmoved.announcedBefore (hend.announced_lt hleft.nested)
  have hmoved' : ({} : ScanState).Moved (Bracketed.ofLexemes vs.toArray) us.length t' := by
    refine ScanState.moved_start ?_ ?_ ?_ ?_ ?_
    · rw [hmoved.scopes, hscopes]
      rfl
    · rw [hmoved.groups, hgroups]
      rfl
    · rw [hmoved.head, hhead, Nat.zero_add]
      rfl
    · rwa [Nat.zero_add] at hannounced
    · rintro ⟨i, hi⟩
      rw [Bracketed.wordInAt, Bracketed.at?_ofLexemes] at hi
      obtain ⟨u, hu, hquery⟩ := (Option.any_eq_true _ _).1 hi
      rw [hqueries u (List.mem_of_getElem? hu)] at hquery
      cases hquery
  obtain ⟨r, r', -, -, hsteps'⟩ := CxxFloor.stepsFrom_append hright .start k hmoved'
  have hnil : stepsFrom (Bracketed.ofLexemes (us ++ vs).toArray)
      (us.length + (Bracketed.ofLexemes vs.toArray).size) r' = [] := by
    have hsize : (Bracketed.ofLexemes (us ++ vs).toArray).lexemes.size = us.length + vs.length := by
      simp [Bracketed.ofLexemes]
    rw [stepsFrom, dif_neg]
    rw [hsize]
    exact Nat.lt_irrefl (us.length + vs.length)
  rw [hnil, List.append_nil] at hsteps'
  rw [map_shift_zero, Nat.add_zero, Nat.zero_add] at hsteps
  exact hsteps.trans (congrArg (_ ++ ·) hsteps')

end Complete

/-! ## Cuts -/

theorem interleave_of_lt {number : Nat} {es : List Nat} {ss rs : List (Nat × List Cut)}
    (h : ∀ x ∈ es, ∀ e ∈ ss, e.1 < x) :
    interleave number es (ss ++ rs) = ss.flatMap (·.2) ++ interleave number es rs := by
  induction ss with
  | nil => rfl
  | cons e ss ih =>
      cases es with
      | nil => simp [interleave]
      | cons x es =>
          obtain ⟨i, cuts⟩ := e
          have hlt : i < x := h x List.mem_cons_self (i, cuts) List.mem_cons_self
          have ih' := ih fun x hx e he => h x hx e (List.mem_cons_of_mem _ he)
          rw [List.cons_append, interleave, if_neg (by omega), ih', List.flatMap_cons,
            List.append_assoc]

/-- The preprocessor lines of the first file are cut before its last step, and those of the second
behind it. -/
theorem interleave_append {number last : Nat} {ds es : List Nat} {ss rs : List (Nat × List Cut)}
    (hlast : ∃ cuts, ss.getLast? = some (last, cuts)) (hds : ∀ x ∈ ds, x ≤ last)
    (hes : ∀ x ∈ es, ∀ e ∈ ss, e.1 < x) :
    interleave number (ds ++ es) (ss ++ rs) =
      interleave number ds ss ++ interleave (number + ds.length) es rs := by
  fun_induction interleave number ds ss with
  | case1 number ss => exact interleave_of_lt hes
  | case2 number ds =>
      obtain ⟨cuts, hcuts⟩ := hlast
      simp at hcuts
  | case3 number before ds i cuts ss hle ih =>
      have hrest := ih hlast (fun x hx => hds x (List.mem_cons_of_mem _ hx)) hes
      rw [List.cons_append, List.cons_append, interleave, if_pos hle, ← List.cons_append, hrest,
        List.length_cons, Nat.add_assoc, Nat.add_comm 1]
      rfl
  | case4 number before ds i cuts ss hle ih =>
      have hlast' : ∃ cuts, ss.getLast? = some (last, cuts) := by
        obtain ⟨cuts', hcuts'⟩ := hlast
        cases hss : ss.getLast? with
        | none =>
            -- the last step would stand before a line that stands before it
            rw [List.getLast?_cons, hss] at hcuts'
            cases hcuts'
            exact absurd (hds before List.mem_cons_self) hle
        | some e =>
            rw [List.getLast?_cons, hss] at hcuts'
            exact ⟨cuts', hcuts'⟩
      have hrest := ih hlast' hds fun x hx e he => hes x hx e (List.mem_cons_of_mem _ he)
      rw [List.cons_append, List.cons_append, interleave, if_neg hle, ← List.cons_append, hrest,
        List.append_assoc]

theorem interleave_shift {n k : Nat} (number : Nat) (ds : List Nat)
    (ss : List (Nat × List Cut)) :
    interleave (k + number) (ds.map (n + ·))
        (ss.map fun e => (n + e.1, e.2.map (Cut.shift n k))) =
      (interleave number ds ss).map (Cut.shift n k) := by
  fun_induction interleave number ds ss with
  | case1 number ss => simp [interleave, List.flatMap_map, List.map_flatMap]
  | case2 number ds hne =>
      cases ds with
      | nil => exact absurd rfl hne
      | cons x ds =>
          rw [List.map_nil, List.map_cons, interleave, ← List.map_cons, List.length_map,
            ← List.map_add_range', List.map_map, List.map_map]
          · rfl
          · exact List.cons_ne_nil _ _
  | case3 number before ds i cuts ss hle ih =>
      rw [List.map_cons, List.map_cons, interleave, if_pos (Nat.add_le_add_left hle n),
        List.map_cons, Nat.add_assoc, ← ih, List.map_cons]
      rfl
  | case4 number before ds i cuts ss hle ih =>
      rw [List.map_cons, List.map_cons, interleave, if_neg (by omega), List.map_append, ← ih,
        List.map_cons]

/-! ## Sheets -/

theorem Sheet.sortFrom_append (before : Nat) (ts us : List Lexeme) :
    sortFrom before (ts ++ us) =
      let front := sortFrom before ts
      let rest := sortFrom (before + front.lexemes.length) us
      ⟨front.lexemes ++ rest.lexemes, front.directives ++ rest.directives⟩ := by
  induction ts generalizing before with
  | nil => rfl
  | cons t ts ih =>
      rw [List.cons_append, sortFrom, sortFrom]
      split
      · rw [ih]
        rfl
      · rw [ih]
        simp [Nat.add_assoc, Nat.add_comm 1]

theorem Sheet.sortFrom_add (n before : Nat) (ts : List Lexeme) :
    sortFrom (n + before) ts =
      ⟨(sortFrom before ts).lexemes, (sortFrom before ts).directives.map (n + ·)⟩ := by
  induction ts generalizing before with
  | nil => rfl
  | cons t ts ih =>
      rw [sortFrom, sortFrom]
      split
      · rw [ih]
        rfl
      · rw [Nat.add_assoc, ih]

theorem Sheet.of_mem_directives {before x : Nat} {ts : List Lexeme}
    (h : x ∈ (sortFrom before ts).directives) :
    before ≤ x ∧ x ≤ before + (sortFrom before ts).lexemes.length := by
  induction ts generalizing before with
  | nil => simp [sortFrom] at h
  | cons t ts ih =>
      rw [sortFrom] at h ⊢
      split at h
      next hdirective =>
        rw [if_pos hdirective]
        rcases List.mem_cons.1 h with rfl | h
        · exact ⟨Nat.le_refl x, Nat.le_add_right x _⟩
        · exact ih h
      next hword =>
        have hrange := ih h
        rw [if_neg hword, List.length_cons]
        omega

theorem Sheet.lt_of_mem_directives {ts : List Lexeme} {t : Lexeme} (ht : ts.getLast? = some t)
    (hkind : t.kind ≠ .directive) {x : Nat} (h : x ∈ (ofLexemes ts).directives) :
    x < (ofLexemes ts).lexemes.length := by
  obtain ⟨us, rfl⟩ := List.getLast?_eq_some_iff.1 ht
  have hone : ∀ before, sortFrom before [t] = ⟨[t], []⟩ := by
    intro before
    simp [sortFrom, hkind]
  rw [ofLexemes, sortFrom_append] at h ⊢
  simp only [hone, List.append_nil, List.length_append, List.length_singleton] at h ⊢
  have := of_mem_directives h
  omega

/-- The cuts of both files are those of the first and those of the second, moved. -/
theorem cutsOf_append {ts us : List Lexeme} (h : Complete (Sheet.ofLexemes ts).lexemes)
    (hlast : ∃ t, ts.getLast? = some t ∧ t.kind ≠ .directive)
    (hus : StartsWithWord (Sheet.ofLexemes us).lexemes)
    (hqueries : ∀ t ∈ (Sheet.ofLexemes us).lexemes, t.isWordIn sizeQueries = false) :
    cutsOf (ts ++ us) = cutsOf ts ++
      (cutsOf us).map (Cut.shift (Sheet.ofLexemes ts).lexemes.length
        (Sheet.ofLexemes ts).directives.length) := by
  obtain ⟨t, ht, hkind⟩ := hlast
  have hsheet : Sheet.ofLexemes (ts ++ us) =
      ⟨(Sheet.ofLexemes ts).lexemes ++ (Sheet.ofLexemes us).lexemes,
        (Sheet.ofLexemes ts).directives ++
          (Sheet.ofLexemes us).directives.map ((Sheet.ofLexemes ts).lexemes.length + ·)⟩ := by
    rw [Sheet.ofLexemes, Sheet.sortFrom_append]
    dsimp only
    rw [Nat.zero_add, ← Nat.add_zero (Sheet.sortFrom 0 ts).lexemes.length, Sheet.sortFrom_add]
    rfl
  have hsteps := h.stepsFrom_append hus hqueries (Sheet.ofLexemes ts).directives.length
  have hend := Boundary.start.getLast?_stepsFrom (Bracketed.nested_ofLexemes _) h.punctAt_last h.pos
  have hbefore : ∀ x ∈ (Sheet.ofLexemes ts).directives, x ≤ (Sheet.ofLexemes ts).lexemes.length - 1 :=
    fun x hx => Nat.le_sub_one_of_lt (Sheet.lt_of_mem_directives ht hkind hx)
  have hbehind : ∀ x ∈ (Sheet.ofLexemes us).directives.map ((Sheet.ofLexemes ts).lexemes.length + ·),
      ∀ e ∈ stepsFrom (Bracketed.ofLexemes (Sheet.ofLexemes ts).lexemes.toArray) 0 {}, e.1 < x := by
    intro x hx e he
    obtain ⟨y, -, rfl⟩ := List.mem_map.1 hx
    obtain ⟨-, hlt, -⟩ := Boundary.start.of_mem_stepsFrom e he
    exact Nat.lt_of_lt_of_le hlt (Nat.le_add_right _ y)
  unfold cutsOf
  rw [hsheet]
  dsimp only [Sheet.bracketed]
  rw [hsteps, interleave_append hend hbefore hbehind, ← interleave_shift, Nat.add_zero,
    Nat.zero_add]

end CxxFloor
