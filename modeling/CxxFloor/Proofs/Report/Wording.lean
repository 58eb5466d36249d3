/-
# What notes and diagnostics say

A diagnostic shows one character of its source at most, and that quoted.  The
reason of a note is a fixed sentence, unless it names the slot that features
contend for or shows the condition of an explicit deduction guide.  A condition
is shown as it is spelled, so where a literal in it spans lines, the reason
does too; it is the only one that can (`Dispatcher.isLine_of_mem_notes`).
-/
import CxxFloor.Proofs.Feature.Contest
import CxxFloor.Proofs.Text.Numeral

namespace CxxFloor

/-- The text is on one line. -/
def IsLine (s : String) : Prop := '\n' ∉ s.toList

instance : DecidablePred IsLine := fun s => inferInstanceAs (Decidable ('\n' ∉ s.toList))

/-- Text without a line feed among its characters is on one line.  A literal is such a text, and its
characters need not be decoded again. -/
theorem isLine_ofList {cs : List Char} (h : '\n' ∉ cs) : IsLine (String.ofList cs) := by
  unfold IsLine
  rwa [String.toList_ofList]

@[simp] theorem isLine_append (s t : String) : IsLine (s ++ t) ↔ IsLine s ∧ IsLine t := by
  simp [IsLine, not_or]

@[simp] theorem isLine_toString (n : Int) : IsLine (toString n) := by
  intro h
  exact absurd (Text.of_mem_toString h) (by decide)

/-! ## Diagnostics -/

theorem newline_notMem_hex (width n : Nat) : '\n' ∉ Text.hex width n := by
  have hdigit : ∀ d < 16, '\n' ≠ Text.hexDigit d := by decide
  intro h
  obtain ⟨d, hd, hc⟩ := Text.exists_of_mem_hex h
  exact hdigit d hd hc

theorem newline_notMem_escape {quote : Char} (h : quote ≠ '\n') (c : Char) :
    '\n' ∉ Text.escape quote c := by
  unfold Text.escape
  split_ifs with hquote htab hfeed hreturn hprintable
  · have hne : '\n' ≠ c := by
      rintro rfl
      simp [h.symm] at hquote
    simp [hne]
  · decide
  · decide
  · decide
  · have hne : '\n' ≠ c := by
      rintro rfl
      simp at hfeed
    simp [hne]
  · unfold Text.escapeByNumber
    split_ifs <;> simp [newline_notMem_hex]

theorem newline_notMem_quoted (cs : List Char) : '\n' ∉ Text.quoted cs := by
  have hquote : Text.quoteFor cs ≠ '\n' := by
    unfold Text.quoteFor
    split <;> decide
  simp [Text.quoted, hquote.symm, newline_notMem_escape hquote]

theorem Fault.isLine_message (e : Fault) : IsLine e.message := by
  cases e with
  | unexpected c =>
      have hmessage : IsLine "Unexpected character " := isLine_ofList (by decide)
      exact (isLine_append _ _).2 ⟨hmessage, isLine_ofList (newline_notMem_quoted [c])⟩
  | _ => exact isLine_ofList (by decide)

theorem Orphan.isLine_message (o : Orphan) : IsLine o.message := by
  have hbracket : ∀ b : Bracket, IsLine b.opener ∧ IsLine b.closer := by
    intro b
    cases b <;> decide
  have hquote : IsLine "'" := by decide
  cases o with
  | unbalanced i b =>
      simp only [Orphan.message, isLine_append]
      exact ⟨⟨isLine_ofList (by decide), (hbracket b).2⟩, hquote⟩
  | unclosed i b =>
      simp only [Orphan.message, isLine_append]
      exact ⟨⟨isLine_ofList (by decide), (hbracket b).1⟩, hquote⟩

theorem isLine_of_mem_diagnostics {name text : String} {d : Diagnostic}
    (h : d ∈ (scan name text).diagnostics) : IsLine d.message := by
  rcases List.mem_append.1 h with h | h
  · obtain ⟨⟨p, fault⟩, -, rfl⟩ := List.mem_map.1 h
    exact fault.isLine_message
  · obtain ⟨o, -, ho⟩ := List.mem_filterMap.1 h
    obtain ⟨t, -, rfl⟩ := Option.map_eq_some_iff.1 ho
    exact o.isLine_message

/-! ## Reasons -/

/-- The reason that a verdict gives. -/
def Verdict.reason? : Verdict → Option String
  | .ambiguous _ reason _ => some reason
  | _ => none

/-- The lexemes of the condition on `explicit` in a view. -/
def View.condition? (v : View) : Option (List Lexeme) :=
  match v.bracketed.explicitSpecifier? with
  | some (k, some close) => some (v.bracketed.between (k + 2) close)
  | _ => none

/-- The matchers whose reasons show nothing of the source. -/
def plainMatchers : List Matcher :=
  [compileTimeBranch, conditionalExplicit, placeholderCopy, staticCall, manyIndices,
   deducedObjectParameter, incompleteSizeQuery, objectCapture, constantTry,
   unionMemberInitializer, messagelessAssertion, staticSubscript, noIndex, fixedObjectParameter,
   sizeSuffix, extendedFloatSuffix, elifdefDirective, warningDirective, assumeAttribute,
   parameterlessSpecifiers, trailingLabel]

theorem isLine_of_mem_plainMatchers {m : Matcher} (hm : m ∈ plainMatchers) {v : View}
    {reason : String} (h : (m.examine v).reason? = some reason) : IsLine reason := by
  simp only [plainMatchers, List.mem_cons, List.not_mem_nil, or_false] at hm
  rcases hm with rfl | rfl | rfl | rfl | rfl | rfl | rfl | rfl | rfl | rfl | rfl | rfl | rfl | rfl |
    rfl | rfl | rfl | rfl | rfl | rfl | rfl
  all_goals
    simp only [compileTimeBranch, conditionalExplicit, placeholderCopy, staticCall, manyIndices,
      deducedObjectParameter, incompleteSizeQuery, objectCapture, constantTry,
      unionMemberInitializer, messagelessAssertion, staticSubscript, noIndex,
      fixedObjectParameter, sizeSuffix, extendedFloatSuffix, elifdefDirective, warningDirective,
      assumeAttribute, parameterlessSpecifiers, trailingLabel, examineBranch, examineCondition,
      examinePlaceholder, examineStaticCall, examineManyIndices, examineObjectParameter,
      examineSizeQuery, examineCapture, examineTry, examineMember, examineAssertion,
      examineStaticSubscript, examineNoIndex, examineSizeSuffix, examineFloatSuffix,
      examineDirective, examineAttributes, examineLambdaSpecifiers, examineLabel] at h
    repeat' split at h
    all_goals first
      | obtain rfl := Option.some.inj h
        exact isLine_ofList (by decide)
      | cases h

/-- The reason to note a guide with a condition is on one line, or shows the condition. -/
theorem of_guideReason? {condition reason : String}
    (h : guideReason? (some condition) = some reason) :
    IsLine reason ∨
      reason = "deduction guide restriction depends on explicit(" ++ condition ++ ")" := by
  unfold guideReason? at h
  split at h
  case h_1 hnone => cases hnone
  case h_2 => cases h
  case h_3 =>
    obtain rfl := Option.some.inj h
    exact .inl (isLine_ofList (by decide))
  case h_4 hsome =>
    obtain rfl := Option.some.inj hsome
    exact .inr (Option.some.inj h).symm

/-- The reason to note a guide is on one line, or shows the condition of the guide. -/
theorem of_examineGuide {v : View} {reason : String}
    (h : (examineGuide v).reason? = some reason) :
    IsLine reason ∨ ∃ condition, v.condition? = some condition ∧
      reason = "deduction guide restriction depends on explicit(" ++ joined condition ++ ")" := by
  unfold examineGuide at h
  dsimp only at h
  split at h
  next => cases h
  next k close? hspecifier =>
    split at h
    next => cases h
    next =>
      split at h
      next reason' hreason =>
        obtain rfl : reason' = reason := Option.some.inj h
        cases close? with
        | none =>
          obtain rfl := Option.some.inj hreason
          exact .inl (isLine_ofList (by decide))
        | some close =>
          refine (of_guideReason? hreason).imp_right fun hshown => ?_
          exact ⟨_, by rw [View.condition?, hspecifier], hshown⟩
      next => cases h

theorem isLine_joined (ts : List Lexeme) : IsLine (joined ts) ↔ ∀ t ∈ ts, IsLine t.text := by
  have hspace : IsLine " " := by decide
  induction ts with
  | nil => simp [joined, String.intercalate_nil, IsLine]
  | cons t ts ih =>
      cases ts with
      | nil => simp [joined, String.intercalate_singleton]
      | cons u ts =>
          have hcons : joined (t :: u :: ts) = t.text ++ " " ++ joined (u :: ts) := by
            rw [joined, List.map_cons, List.map_cons, String.intercalate_cons_cons]
            rfl
          rw [hcons, isLine_append, isLine_append, and_iff_left hspace, List.forall_mem_cons]
          exact and_congr_right fun _ => ih

/-- The reason that a standard matcher gives is on one line, unless the matcher is that of guides
and the condition it shows has a lexeme that is not. -/
theorem of_mem_standardMatchers {m : Matcher} (hm : m ∈ standardMatchers) {v : View}
    {reason : String} (h : (m.examine v).reason? = some reason) :
    IsLine reason ∨ m = restrictedGuide ∧ ∃ condition, v.condition? = some condition ∧
      (∃ t ∈ condition, ¬ IsLine t.text) ∧
      reason = "deduction guide restriction depends on explicit(" ++ joined condition ++ ")" := by
  have hsplit : standardMatchers =
      plainMatchers.take 7 ++ restrictedGuide :: plainMatchers.drop 7 := rfl
  have hcase : m ∈ plainMatchers ∨ m = restrictedGuide := by
    rw [hsplit] at hm
    rcases List.mem_append.1 hm with hm | hm
    · exact .inl (List.mem_of_mem_take hm)
    · exact (List.mem_cons.1 hm).symm.imp_left List.mem_of_mem_drop
  obtain hplain | rfl := hcase
  · exact .inl (isLine_of_mem_plainMatchers hplain h)
  · rcases of_examineGuide h with hline | ⟨condition, hcondition, hreason⟩
    · exact .inl hline
    · by_cases hlines : ∀ t ∈ condition, IsLine t.text
      · refine .inl ?_
        rw [hreason, isLine_append, isLine_append, isLine_joined]
        exact ⟨⟨isLine_ofList (by decide), hlines⟩, by decide⟩
      · push Not at hlines
        exact .inr ⟨rfl, condition, hcondition, hlines, hreason⟩

/-! ## Notes -/

/-- The note shows the condition of an explicit guide in the fragment, and a lexeme of the condition
is on several lines. -/
def Note.ShowsLines (n : Note) (f : Fragment) : Prop :=
  n.feature = restrictedGuide.id ∧ ∃ condition, f.view.condition? = some condition ∧
    (∃ t ∈ condition, ¬ IsLine t.text) ∧
    n.reason = "deduction guide restriction depends on explicit(" ++ joined condition ++ ")"

/-- The catalog says on one line of each feature what it is and which slot it has. -/
def Catalog.OnLines (c : Catalog) : Prop :=
  ∀ d ∈ c.entries, IsLine d.description ∧ ∀ slot ∈ d.slot, IsLine slot

theorem onLines_standardCatalog : standardCatalog.OnLines := by
  unfold Catalog.OnLines
  simp only [standardCatalog, standardFeatures, List.forall_mem_cons, List.not_mem_nil,
    false_implies, implies_true, and_true, Option.mem_def, Option.some.injEq, forall_eq',
    reduceCtorEq]
  and_intros
  all_goals exact isLine_ofList (by decide)

namespace Dispatcher

variable {d : Dispatcher} {f : Fragment} {n : Note}

theorem isLine_id {e : Examiner} (he : e ∈ standardExaminers) : IsLine e.id := by
  have hids : ∀ m ∈ standardMatchers, IsLine m.id := by
    simp only [standardMatchers, List.forall_mem_cons, List.not_mem_nil, false_implies,
      implies_true, and_true]
    and_intros
    all_goals exact isLine_ofList (by decide)
  obtain ⟨m, hm, rfl⟩ := exists_matcher he
  exact hids m hm

theorem isLine_of_mem_claims (hmatchers : ∀ e ∈ d.matchers, e ∈ standardExaminers) {r : Match}
    (h : r ∈ d.claims f) : IsLine r.feature := by
  obtain ⟨e, he, -, hfound⟩ := mem_claims.1 h
  rw [feature_of_match? (match?_eq_some.2 hfound)]
  exact isLine_id (hmatchers e he)

/-- The note on a contested slot is on one line. -/
theorem isLine_conflict (hmatchers : ∀ e ∈ d.matchers, e ∈ standardExaminers)
    (hcatalog : d.catalog.OnLines)
    (h : n ∈ (enforceSlots d.catalog f (d.claims f)).notes) :
    IsLine n.feature ∧ IsLine n.reason := by
  obtain ⟨slot, hslot, rfl⟩ := List.mem_map.1 h
  constructor
  · unfold conflict
    dsimp only
    cases hrivals : rivals d.catalog (d.claims f) slot with
    | nil => decide
    | cons r rs =>
        have hr : r ∈ rivals d.catalog (d.claims f) slot := hrivals ▸ List.mem_cons_self
        exact isLine_of_mem_claims hmatchers (mem_rivals.1 hr).1
  · obtain ⟨r, -, hr⟩ := mem_slotsOf.1 (List.mem_filter.1 hslot).1
    obtain ⟨e, he, hslot⟩ := Option.bind_eq_some_iff.1 hr
    have hline := (hcatalog e (List.mem_of_find?_eq_some he)).2 slot hslot
    unfold conflict
    dsimp only
    rw [isLine_append, isLine_append]
    exact ⟨⟨isLine_ofList (by decide), hline⟩, isLine_ofList (by decide)⟩

/-- A note that a dispatcher of standard matchers makes is on one line, in its feature and its
reason, unless it shows the lines of a condition. -/
theorem isLine_of_mem_notes (hmatchers : ∀ e ∈ d.matchers, e ∈ standardExaminers)
    (hcatalog : d.catalog.OnLines)
    (h : n ∈ (d.examine f).notes) :
    IsLine n.feature ∧ (IsLine n.reason ∨ n.ShowsLines f) := by
  rcases List.mem_append.1 h with h | h
  · obtain ⟨o, ho, hn⟩ := List.mem_filterMap.1 h
    obtain ⟨e, he, rfl⟩ := List.mem_map.1 ho
    have hexaminer := hmatchers e (List.mem_filter.1 he).1
    obtain ⟨m, hstandard, rfl⟩ := exists_matcher hexaminer
    obtain ⟨span, reason, candidates, hverdict, rfl⟩ := of_note? hn
    refine ⟨isLine_id hexaminer, ?_⟩
    have hreason : (m.examine f.view).reason? = some reason := by rw [hverdict]; rfl
    refine (of_mem_standardMatchers hstandard hreason).imp_right ?_
    rintro ⟨rfl, condition, hcondition⟩
    exact ⟨rfl, condition, hcondition⟩
  · exact (isLine_conflict hmatchers hcatalog h).imp_right .inl

/-- The reason that an enabled standard matcher gives in a fragment of a text is that of a note on
the text. -/
theorem exists_note_of_reason {m : Matcher} (hm : m ∈ standardMatchers) {disabled : List String}
    (henabled : m.id ∉ disabled) {name text reason : String} {floor : Int}
    (h : ∃ f ∈ (scan name text).fragments, m.kinds.contains f.kind = true ∧
      (m.examine f.view).reason? = some reason) :
    ∃ n ∈ (standardReport name text floor disabled).notes, n.reason = reason := by
  obtain ⟨f, hf, hkind, hreason⟩ := h
  cases hverdict : m.examine f.view with
  | absent => simp [hverdict, Verdict.reason?] at hreason
  | found span => simp [hverdict, Verdict.reason?] at hreason
  | ambiguous span reason' candidates =>
      obtain rfl : reason' = reason := by simpa [hverdict, Verdict.reason?] using hreason
      have hnote : note? (m.outcome f) = some { f.spot span with
          feature := m.id, reason := reason', candidates := candidates } := by
        simp [Matcher.outcome, Fragment.outcome, hverdict, note?]
      exact ⟨_, mem_notes_of_note? hm henabled hf hkind hnote, rfl⟩

end Dispatcher

end CxxFloor
