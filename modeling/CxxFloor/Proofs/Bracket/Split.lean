/-
# The parts of a split

A split cuts a list and moves nothing: whatever the separator, and whether
angles are tracked or not, the lexemes of a part stand one behind the other
where the part says (`Part.StandsIn`).  Cutting a part at its front or at its
end keeps that.  So what is found in a part can be pointed at by an index, and
a part that is not empty lies inside the lexemes it was taken from
(`Part.StandsIn.lt_size`).
-/
import CxxFloor.Bracket.Walk
import CxxFloor.Declarator.ObjectParameter

namespace CxxFloor

theorem Bracketed.at?_of_between {b : Bracketed} {start stop k : Nat} {t : Lexeme}
    (h : (b.between start stop)[k]? = some t) : b.at? (start + k) = some t := by
  rw [between, Array.getElem?_toList, Array.getElem?_extract] at h
  split at h
  · exact h
  · cases h

/-- The lexemes of the part stand in `b` from the index on that the part says. -/
def Part.StandsIn (b : Bracketed) (p : Part) : Prop :=
  ∀ k t, p.lexemes[k]? = some t → b.at? (p.start + k) = some t

namespace Part

variable {b : Bracketed} {p : Part}

/-! ## Splitting -/

theorem start_splitFrom (separator : String) (trackAngles : Bool) (i : Nat) (s : SplitState)
    (ts : List Lexeme) : (splitFrom separator trackAngles i s ts).1.start = i := by
  cases ts with
  | nil => rfl
  | cons t ts =>
      rw [splitFrom]
      dsimp only
      split <;> rfl

/-- Lexemes that stand in `b` from index `i` on are split into parts that stand in `b`. -/
theorem standsIn_splitFrom {separator : String} {trackAngles : Bool} {ts : List Lexeme} :
    ∀ {i : Nat} {s : SplitState}, StandsIn b ⟨i, ts⟩ →
      StandsIn b (splitFrom separator trackAngles i s ts).1 ∧
        ∀ p ∈ (splitFrom separator trackAngles i s ts).2, StandsIn b p := by
  induction ts with
  | nil =>
      intro i s h
      exact ⟨h, by simp [splitFrom]⟩
  | cons t ts ih =>
      intro i s h
      have hrest : StandsIn b ⟨i + 1, ts⟩ := by
        intro k u hu
        show b.at? (i + 1 + k) = some u
        rw [Nat.add_assoc, Nat.add_comm 1 k]
        exact h (k + 1) u hu
      obtain ⟨hpart, hlater⟩ := ih (s := s.next trackAngles t) hrest
      have hstart := start_splitFrom separator trackAngles (i + 1) (s.next trackAngles t) ts
      rw [splitFrom]
      dsimp only
      split
      · refine ⟨nofun, fun p hp => ?_⟩
        rcases List.mem_cons.1 hp with rfl | hp
        · exact hpart
        · exact hlater p hp
      · refine ⟨fun k u hu => ?_, hlater⟩
        cases k with
        | zero => exact h 0 u hu
        | succ k =>
            have hat := hpart k u hu
            rw [hstart] at hat
            show b.at? (i + (k + 1)) = some u
            rw [Nat.add_comm k 1, ← Nat.add_assoc]
            exact hat

theorem standsIn_of_mem_split {separator : String} {trackAngles : Bool} {start stop : Nat}
    (h : p ∈ splitTopLevel separator trackAngles start (b.between start stop)) :
    p.StandsIn b := by
  have hall : StandsIn b ⟨start, b.between start stop⟩ := fun k t ht => Bracketed.at?_of_between ht
  have hsplit : StandsIn b (splitFrom separator trackAngles start {} (b.between start stop)).1 ∧
      ∀ p ∈ (splitFrom separator trackAngles start {} (b.between start stop)).2, StandsIn b p :=
    standsIn_splitFrom hall
  unfold splitTopLevel at h
  split at h
  · cases h
  · rcases List.mem_cons.1 h with rfl | h
    · exact hsplit.1
    · exact hsplit.2 p h

/-! ## Cutting a part -/

theorem StandsIn.drop (h : p.StandsIn b) (n : Nat) : StandsIn b ⟨p.start + n, p.lexemes.drop n⟩ := by
  intro k t ht
  rw [List.getElem?_drop] at ht
  show b.at? (p.start + n + k) = some t
  rw [Nat.add_assoc]
  exact h (n + k) t ht

theorem StandsIn.of_prefix (h : p.StandsIn b) {ts : List Lexeme} (hts : ts <+: p.lexemes) :
    StandsIn b ⟨p.start, ts⟩ := by
  obtain ⟨rest, hrest⟩ := hts
  intro k t ht
  obtain ⟨hk, -⟩ := List.getElem?_eq_some_iff.1 ht
  refine h k t ?_
  rw [← hrest, List.getElem?_append_left hk]
  exact ht

theorem StandsIn.stripAttributes (h : p.StandsIn b) : p.stripAttributes.StandsIn b :=
  h.drop (leadingAttributes p.lexemes)

theorem StandsIn.declared {o : ObjectParameter} (h : o.part.StandsIn b) :
    o.declared.StandsIn b :=
  h.of_prefix (List.takeWhile_prefix _)

/-! ## Where a part ends -/

theorem StandsIn.lt_size (h : p.StandsIn b) {k : Nat} (hk : k < p.lexemes.length) :
    p.start + k < b.size := by
  have hat := h k _ (List.getElem?_eq_getElem hk)
  exact (Array.getElem?_eq_some_iff.1 hat).1

end Part

/-- The explicit object parameter is the first of the parameters; it starts with `this`, attributes
left aside, and `this` is not the sign of a default. -/
theorem objectParameter?_standsIn {b : Bracketed} {params : List Part} {o : ObjectParameter}
    (hparams : ∀ p ∈ params, p.StandsIn b) (h : objectParameter? params = some o) :
    o.declared.StandsIn b ∧ o.declared.lexemes ≠ [] := by
  unfold objectParameter? at h
  split at h
  · cases h
  next first rest =>
    dsimp only at h
    split at h
    next hthis =>
      obtain rfl := Option.some.inj h
      refine ⟨(hparams first List.mem_cons_self).stripAttributes.declared, fun hnil => ?_⟩
      unfold ObjectParameter.declared at hnil
      dsimp only at hnil
      cases hlexemes : first.stripAttributes.lexemes with
      | nil => simp [hlexemes] at hthis
      | cons t ts =>
          have hword : t.isWord "this" = true := by simpa [hlexemes] using hthis
          have hequals : t.isPunct "=" = false := by
            simp only [Lexeme.isWord, Bool.and_eq_true, beq_iff_eq] at hword
            simp [Lexeme.isPunct, hword.1]
          simp [hlexemes, hequals] at hnil
    next => cases h

end CxxFloor
