/-
# The table is a matching without crossings

Main statement: whatever tokens are paired up, an opener is paired with a
later closer of its own kind, each with the other, and two pairs lie apart or
one inside the other (`Pairing.NonCrossing`).  Of the brackets that are left
over each has one remark; a paired opener has none, and a paired closer one at
most.  Without any remark the brackets are balanced, and conversely, and then
all are paired as the groups say (`brackets_matched`).

Remarks are told apart by their line and column, so the tokens have to stand
at different places.  Those of a file do.

The remarks are counted in `CxxFloor.Proofs.Bracket.Orphans`; what balanced
means is said in `CxxFloor.Proofs.Bracket.Dyck`.
-/
import CxxFloor.Proofs.Bracket.Dyck
import CxxFloor.Token.Stream

namespace CxxFloor

/-- The table pairs brackets of the lexemes, and its pairs do not cross. -/
structure Pairing.NonCrossing (p : Pairing) (ts : List Lexeme) : Prop where
  partner_symm : ∀ i j, p.partner? i = some j → p.partner? j = some i
  partner_ne : ∀ i, p.partner? i ≠ some i
  /-- Of a pair the first bracket opens what the second one closes. -/
  matched : ∀ i j, p.partner? i = some j → i < j →
    ∃ k, ts[i]?.bind Lexeme.opens? = some k ∧ ts[j]?.bind Lexeme.closes? = some k
  /-- Of two pairs the one that opens later lies behind the other or inside it. -/
  apart_or_inside : ∀ i j k l, p.partner? i = some j → p.partner? k = some l → i < j → k < l →
    i < k → j < k ∨ l < j

theorem Pairing.nonCrossing_ofLexemes (ts : List Lexeme) :
    (Pairing.ofLexemes ts).NonCrossing ts := by
  have hb := Bracketed.nested_ofLexemes ts.toArray
  refine ⟨fun i j => hb.partner_symm, fun i hi => hb.partner_ne hi rfl, ?_, ?_⟩
  · intro i j hij hlt
    obtain ⟨k, hopens, hcloses⟩ := hb.matched hij hlt
    rw [at?_ofLexemes] at hopens hcloses
    exact ⟨k, hopens, hcloses⟩
  · intro i j k l hij hkl _ hlt hik
    rcases Nat.lt_trichotomy k j with hkj | rfl | hjk
    · exact .inr (hb.inside hij hkl hik hkj).2
    · -- a closer that is an opener too would be paired with a later bracket
      have hsymm : (ofLexemes ts).partner? k = some i := hb.partner_symm hij
      rw [hsymm] at hkl
      cases hkl
      exact absurd hlt (Nat.lt_asymm hik)
    · exact .inl hjk

theorem bracketDiagnostics_eq_nil_iff {ts : List Token} :
    bracketDiagnostics ts = [] ↔ Dyck (ts.map (·.toLexeme)) := by
  refine ⟨fun h => allOrphans_eq_nil_iff.1 (allOrphans_eq_nil h), fun h => ?_⟩
  rw [bracketDiagnostics, allOrphans_eq_nil_iff.2 h]
  rfl

/-- The table of any tokens that stand at different places is a matching without crossings; the
brackets it leaves out are remarked on once each, and there are none just when the brackets are
balanced, where each is paired with its partner. -/
theorem brackets_matched (ts : List Token)
    (hplaces : (ts.map fun t => (t.start.line, t.start.column)).Nodup) :
    let lexemes := ts.map (·.toLexeme)
    let p := Pairing.ofLexemes lexemes
    let remarksAt := fun t : Token => (bracketDiagnostics ts).countP (·.isAt t.start)
    p.NonCrossing lexemes ∧
      (∀ i t, ts[i]? = some t →
        (p.partner? i = none → t.isBracket = true → remarksAt t = 1) ∧
        (∀ j, p.partner? i = some j → i < j → remarksAt t = 0) ∧
        (∀ j, p.partner? i = some j → j < i → remarksAt t ≤ 1)) ∧
      (bracketDiagnostics ts = [] ↔ Dyck lexemes) ∧
      (Dyck lexemes →
        (∀ i t, ts[i]? = some t → t.isBracket = true → ∃ j, p.partner? i = some j) ∧
        ∀ i j, i < j → (p.partner? i = some j ↔ DyckPartner lexemes i j)) := by
  intro lexemes p remarksAt
  have hlexeme : ∀ {i : Nat} {t : Token}, ts[i]? = some t → lexemes[i]? = some t.toLexeme := by
    intro i t ht
    rw [List.getElem?_map, ht, Option.map_some]
  refine ⟨Pairing.nonCrossing_ofLexemes lexemes, ?_, bracketDiagnostics_eq_nil_iff, ?_⟩
  · intro i t ht
    have hcount : remarksAt t = _ := countP_bracketDiagnostics hplaces ht
    rw [hcount]
    refine ⟨?_, ?_, ?_⟩
    · intro hnone hbracket
      exact count_allOrphans_of_unpaired (hlexeme ht) hbracket hnone
    · intro j hj hij
      exact count_allOrphans_of_paired hj hij
    · intro _ _ _
      exact count_allOrphans_le lexemes i
  · intro hdyck
    refine ⟨?_, ?_⟩
    · intro i t ht hbracket
      exact hdyck.exists_partner (hlexeme ht) hbracket
    · intro i j hij
      exact hdyck.partner?_iff hij

/-- A parenthesis reaches over a square bracket, and a brace closes nothing: the parenthesis has
a remark although it is paired, and the other two have one each. -/
theorem brackets_matched_crossed :
    let ts := tokens "([)\x7d".toList
    (ts.map fun t => (t.start.line, t.start.column)).Nodup ∧
      ((Pairing.ofLexemes (ts.map (·.toLexeme))).NonCrossing (ts.map (·.toLexeme)) ∧
        ∀ i t, ts[i]? = some t →
          (Pairing.ofLexemes (ts.map (·.toLexeme))).partner? i = none → t.isBracket = true →
            (bracketDiagnostics ts).countP (·.isAt t.start) = 1) ∧
      (List.range 4).map (Pairing.ofLexemes (ts.map (·.toLexeme))).partner? =
        [some 2, none, some 0, none] ∧
      ts.map (fun t => (bracketDiagnostics ts).countP (·.isAt t.start)) = [0, 1, 1, 1] := by
  intro ts
  have hplaces : (ts.map fun t => (t.start.line, t.start.column)).Nodup := by decide +kernel
  obtain ⟨hcrossing, hremarks, -⟩ := brackets_matched ts hplaces
  exact ⟨hplaces, ⟨hcrossing, fun i t ht => (hremarks i t ht).1⟩, by decide +kernel,
    by decide +kernel⟩

end CxxFloor
