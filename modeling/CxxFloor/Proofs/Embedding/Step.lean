/-
# Steps inside a longer file

A step of the walk over the longer file does, at the moved index and from the
moved state, what the step of the walk over the file alone does
(`ScanState.Moved.step`).  There is one lemma for each part of a step, in the
order of the parts.  A whole walk follows by induction
(`stepsFrom_append`): its steps are those of the file, moved, and then it goes
on behind the file.
-/
import CxxFloor.Proofs.Embedding.State

namespace CxxFloor

/-- The moves lead to corresponding states and places, and make corresponding cuts. -/
structure Move.Echoes (b : Bracketed) (d k : Nat) {i : Nat} (m : Move i) (m' : Move (d + i)) :
    Prop where
  next : m'.next = d + m.next
  outcome : ScanState.Echoes b d k (m.state, m.cuts) (m'.state, m'.cuts)

namespace ScanState

namespace Moved

variable {b b' : Bracketed} {d k i start stop : Nat} {s s' t t' : ScanState}

/-! ## Declarations -/

theorem recordIsOpen_eq (hm : s.Moved b d s') (name : String) :
    s'.recordIsOpen name = s.recordIsOpen name := by
  unfold recordIsOpen
  rw [hm.scopes, List.any_map]
  rfl

theorem forwardName?_eq (h : b.Embeds b' d) (hstart : b.Visible b' d start)
    (hstop : stop ≤ b.size) :
    forwardName? b' (d + start) (d + stop) = forwardName? b start stop := by
  unfold forwardName?
  rw [h.bodyStart_headFront hstart, h.between_eq hstop]

theorem of_records (hm : s.Moved b d s')
    (ht : t = { s with forward := t.forward, completed := t.completed })
    (ht' : t' = { s' with forward := t'.forward, completed := t'.completed })
    (hrecords : (∃ i, b.wordInAt i sizeQueries = true) →
      t'.forward = t.forward ∧ t'.completed = t.completed) : t.Moved b d t' := by
  rw [ht, ht']
  exact { hm with records := hrecords }

theorem noteForward (hm : s.Moved b d s') (h : b.Embeds b' d) (hstart : b.Visible b' d start)
    (hstop : stop ≤ b.size) :
    (s.noteForward b start stop).Moved b d (s'.noteForward b' (d + start) (d + stop)) := by
  have hfields : ∀ (b : Bracketed) (s : ScanState) (start stop : Nat),
      s.noteForward b start stop = { s with
        forward := (s.noteForward b start stop).forward
        completed := (s.noteForward b start stop).completed } := by
    intro b s start stop
    unfold ScanState.noteForward
    split
    · split <;> rfl
    · rfl
  refine hm.of_records (hfields b s start stop) (hfields b' s' (d + start) (d + stop)) ?_
  intro hquery
  obtain ⟨hforward, hcompleted⟩ := hm.records hquery
  unfold ScanState.noteForward
  rw [forwardName?_eq h hstart hstop]
  cases forwardName? b start stop with
  | none => exact ⟨hforward, hcompleted⟩
  | some name =>
      simp only [hforward, hcompleted, hm.recordIsOpen_eq]
      split
      · exact ⟨hforward, hcompleted⟩
      · exact ⟨rfl, rfl⟩

theorem declarationCuts (hm : s.Moved b d s') (h : b.Embeds b' d)
    (hhead : b.Visible b' d s.head) (hstop : stop ≤ b.size) :
    s'.declarationCuts b' (d + start) (d + stop)
      = (s.declarationCuts b start stop).map (Cut.shift d k) := by
  unfold ScanState.declarationCuts
  by_cases hlt : start < stop
  · have htry : b'.withoutTry 0 (d + stop) = d + b.withoutTry 0 stop :=
      h.withoutTry_eq hstop (by omega)
    have hle : b.withoutTry 0 stop ≤ b.size := Nat.le_trans (Bracketed.withoutTry_le _ _) hstop
    rw [if_pos hlt, if_pos (Nat.add_lt_add_left hlt d), htry]
    generalize b.withoutTry 0 stop = last at *
    by_cases hlast : start < last
    · have hpred : d + last - 1 = d + (last - 1) := Nat.add_sub_assoc (by omega) d
      simp only [if_pos hlast, if_pos (Nat.add_lt_add_left hlast d), hpred, h.namesOperator_eq hle,
        hm.span_eq (k := k) h hhead, List.map_cons]
      split <;> rfl
    · simp [hlast]
  · simp [hlt]

theorem statementCuts (hm : s.Moved b d s') (h : b.Embeds b' d)
    (hhead : b.Visible b' d s.head) (hi : i ≤ b.size) :
    s'.statementCuts b' (d + i) = (s.statementCuts b i).map (Cut.shift d k) := by
  unfold ScanState.statementCuts
  rw [hm.head, h.bodyStart_headFront hhead]
  generalize (b.headFront s.head i).bodyStart = body
  dsimp only
  by_cases hle : i ≤ body
  · simp [hle]
  · have hbody : b.Visible b' d body := Or.inl (by omega)
    have hpred : d + i - 1 = d + (i - 1) := Nat.add_sub_assoc (by omega) d
    have hnot : ¬ d + i ≤ d + body := by omega
    rw [if_neg hle, if_neg hnot, h.wordInAt_eq hbody, hm.scope_kind,
      h.declaresDataMember_eq hi hbody, hpred, hm.span_eq (k := k) h hhead,
      hm.declarationCuts (k := k) h hhead hi]
    repeat' split
    all_goals rfl

theorem endStatement (hm : s.Moved b d s') (h : b.Embeds b' d) (hhead : s.head ≤ i)
    (hi : i < b.size) :
    Echoes b d k (s.endStatement b i) (s'.endStatement b' (d + i)) := by
  have hvisible : b.Visible b' d s.head := Or.inl (by omega)
  unfold ScanState.endStatement
  rw [hm.scope_kind, hm.head]
  by_cases hdeclares : (s.scope.kind.holdsDeclarations && decide (s.head < i)) = true
  · have hdeclares' : (s.scope.kind.holdsDeclarations && decide (d + s.head < d + i)) = true := by
      simpa using hdeclares
    rw [if_pos hdeclares, if_pos hdeclares']
    have hnote := hm.noteForward h hvisible (Nat.le_of_lt hi)
    refine ⟨{ hnote with head := rfl }, ?_⟩
    refine hnote.statementCuts h ?_ (Nat.le_of_lt hi)
    rw [ScanState.head_noteForward]
    exact hvisible
  · have hdeclares' : ¬ (s.scope.kind.holdsDeclarations && decide (d + s.head < d + i)) = true := by
      simpa using hdeclares
    rw [if_neg hdeclares, if_neg hdeclares']
    exact ⟨{ hm with head := rfl }, rfl⟩

/-! ## Braces -/

theorem enterLambda (hm : s.Moved b d s') (body : Scope) :
    (s.enterLambda body).Moved b d (s'.enterLambda (body.shift d)) := by
  obtain ⟨old, hbodies, hold⟩ := hm.lambdaBodies
  have hsame : (fun scope : Scope => decide (scope.opener ≠ (body.shift d).opener)) ∘ Scope.shift d
      = fun scope => decide (scope.opener ≠ body.opener) := by
    funext scope
    simp [Scope.shift]
  have hkept : old.filter (fun scope => decide (scope.opener ≠ (body.shift d).opener)) = old := by
    refine List.filter_eq_self.2 ?_
    intro scope hscope
    have hlt := hold scope hscope
    have hne : scope.opener ≠ d + body.opener := by omega
    exact decide_eq_true hne
  refine { hm with scopes := ?_, groups := rfl, head := rfl, lambdaBodies := ⟨old, ?_, hold⟩ }
  · show _ :: s'.scopes = List.map _ (_ :: s.scopes)
    rw [List.map_cons, hm.scopes, hm.groups, hm.head]
    rfl
  · show s'.lambdaBodies.filter _ = List.map _ (s.lambdaBodies.filter _) ++ old
    rw [hbodies, List.filter_append, List.filter_map, hsame, hkept]

theorem enterScope (hm : s.Moved b d s') (i : Nat) (kind : ScopeKind) (head : Head) :
    (s.enterScope i kind head).Moved b d (s'.enterScope (d + i) kind (head.shift d)) := by
  refine { hm with scopes := ?_, head := rfl }
  show _ :: s'.scopes = List.map _ (_ :: s.scopes)
  rw [List.map_cons, hm.scopes, hm.inConstantFunction_eq]
  rfl

theorem openBrace (hm : s.Moved b d s') (h : b.Embeds b' d) (hhead : s.head ≤ i)
    (hi : i < b.size) : Echoes b d k (s.openBrace b i) (s'.openBrace b' (d + i)) := by
  have hvisible : b.Visible b' d i := Or.inl hi
  have hheadVisible : b.Visible b' d s.head := Or.inl (by omega)
  have hle : i ≤ b.size := Nat.le_of_lt hi
  have hpartner := h.isSome_partner? hvisible
  unfold ScanState.openBrace
  rw [← Option.not_isSome, ← Option.not_isSome, hpartner]
  split
  · exact ⟨hm, rfl⟩
  rw [hm.find?_lambdaBodies]
  cases s.lambdaBodies.find? (·.opener = i) with
  | some body => exact ⟨hm.enterLambda body, rfl⟩
  | none =>
      simp only [Option.map_none, hm.atTop_eq, hm.head]
      split
      · exact ⟨hm.openGroup h hvisible false, rfl⟩
      rw [h.head_eq hheadVisible hle hm.scope_kind hm.scope_template hm.scope_templateNames,
        h.declaresConstantVariable_eq hle hheadVisible]
      cases hkind : (b.head s.scope s.head i).kind with
      | none =>
          simp only [Head.shift, hkind]
          exact ⟨hm.openGroup h hvisible _, rfl⟩
      | some kind =>
          simp only [Head.shift, hkind]
          refine ⟨hm.enterScope i kind _, ?_⟩
          simp only [hm.scope_kind, hm.declarationCuts (k := k) h hheadVisible hle]
          split <;> rfl

theorem complete (hm : s.Moved b d s') (closed : List Scope) :
    (s.complete closed).Moved b d (s'.complete (closed.map (Scope.shift d))) := by
  refine hm.of_records rfl rfl ?_
  intro hquery
  obtain ⟨hforward, hcompleted⟩ := hm.records hquery
  have hnames : ((closed.map (Scope.shift d)).filterMap fun scope =>
        if scope.kind.isClass then scope.name else none) =
      closed.filterMap fun scope => if scope.kind.isClass then scope.name else none := by
    rw [List.filterMap_map]
    rfl
  unfold ScanState.complete
  simp only [hnames, hforward, hcompleted, and_self]

theorem closeScope (hm : s.Moved b d s') (i opener : Nat) :
    (s.closeScope i opener).Moved b d (s'.closeScope (d + i) (d + opener)) := by
  have hsame : (fun scope : Scope => decide (scope.opener ≠ d + opener)) ∘ Scope.shift d
      = fun scope => decide (scope.opener ≠ opener) := by
    funext scope
    simp [Scope.shift]
  unfold ScanState.closeScope
  simp only [hm.scopes, List.takeWhile_map, List.dropWhile_map, hsame]
  cases s.scopes.dropWhile fun scope => decide (scope.opener ≠ opener) with
  | nil => exact hm
  | cons scope outer =>
      have hclosed := hm.complete (s.scopes.takeWhile (fun scope => decide (scope.opener ≠ opener))
        ++ [scope])
      rw [List.map_append, List.map_singleton] at hclosed
      simp only [List.map_cons]
      cases hresume : scope.resume with
      | none =>
          have hresume' : (scope.shift d).resume = none := by
            rw [Scope.resume_shift, hresume]
            rfl
          simp only [hresume']
          exact { hclosed with scopes := rfl, head := rfl }
      | some resume =>
          have hresume' : (scope.shift d).resume = some (resume.shift d) := by
            rw [Scope.resume_shift, hresume]
            rfl
          simp only [hresume']
          exact { hclosed with scopes := rfl, groups := rfl, head := rfl }

theorem closeBrace (hm : s.Moved b d s') (h : b.Embeds b' d) (hi : b.Visible b' d i) :
    (s.closeBrace b i).Moved b d (s'.closeBrace b' (d + i)) := by
  unfold ScanState.closeBrace
  rw [h.partner?_eq hi, hm.atTop_eq]
  cases b.pairs.partner? i with
  | none =>
      simp only [Option.map_none]
      split
      · exact { hm with head := rfl }
      · exact hm
  | some opener =>
      have hany : s'.groups.any (·.opener = d + opener) = s.groups.any (·.opener = opener) := by
        rw [hm.groups, List.any_map]
        congr 1
        funext group
        simp [Group.shift]
      simp only [Option.map_some, hany]
      split
      · exact hm.closeGroup h hi
      · have hbare : ({ s with groups := [] } : ScanState).Moved b d { s' with groups := [] } :=
          { hm with groups := rfl }
        exact hbare.closeScope i opener

/-! ## Square brackets -/

theorem noteLambda (hm : s.Moved b d s') (h : b.Embeds b' d) (hhead : s.head ≤ i)
    (hi : i < b.size) : Echoes b d k (s.noteLambda b i) (s'.noteLambda b' (d + i)) := by
  have hvisible : b.Visible b' d i := Or.inl hi
  have hheadVisible : b.Visible b' d s.head := Or.inl (by omega)
  have hpos : ∀ body, (b.lambdaAhead s.scope i).body = some body → 0 < body.opener := by
    intro body hbody
    obtain ⟨close, -, hlt, -⟩ := CutsOf.lambdaAhead_body hbody
    omega
  unfold ScanState.noteLambda
  rw [h.introducesLambda_eq hvisible]
  split
  next =>
    rw [h.lambdaAhead_eq hm.scope_template hm.scope_templateNames hvisible]
    generalize b.lambdaAhead s.scope i = ahead at *
    obtain ⟨parameters, body⟩ := ahead
    have hstate : ({ s with
          lambdaParameters := parameters.toList ++ s.lambdaParameters } : ScanState).Moved b d
        { s' with
          lambdaParameters := (parameters.map (d + ·)).toList ++ s'.lambdaParameters } := by
      obtain ⟨old, hparameters, hold⟩ := hm.lambdaParameters
      refine { hm with lambdaParameters := ⟨old, ?_, hold⟩ }
      show (parameters.map (d + ·)).toList ++ s'.lambdaParameters = _
      rw [hparameters, List.map_append, List.append_assoc]
      cases parameters <;> rfl
    cases body with
    | none => exact ⟨hstate, rfl⟩
    | some body =>
        have hpred : d + body.opener - 1 = d + (body.opener - 1) :=
          Nat.add_sub_assoc (hpos body rfl) d
        obtain ⟨old, hbodies, hold⟩ := hm.lambdaBodies
        refine ⟨{ hstate with lambdaBodies := ⟨old, ?_, hold⟩ }, ?_⟩
        · show body.shift d :: s'.lambdaBodies = _
          rw [hbodies]
          rfl
        · have hspan := hstate.span_eq (k := k) h hheadVisible .captureList i (body.opener - 1)
          rw [← hpred] at hspan
          exact congrArg ([·]) hspan
  next => exact ⟨hm, rfl⟩

theorem opensArrayBound_eq (hm : s.Moved b d s') (h : b.Embeds b' d) (hi : b.Visible b' d i) :
    s'.opensArrayBound b' (d + i) = s.opensArrayBound b i := by
  unfold opensArrayBound
  rw [hm.atTop_eq, hm.scope_kind]
  rcases Nat.eq_zero_or_pos i with rfl | hpos
  · cases d with
    | zero => simp
    | succ d => simp [h.nameAt_before, h.punctAt_before]
  · have hpred : b.Visible b' d (i - 1) := Bracketed.Embeds.visible_of_le hi (Nat.sub_le i 1)
    have hpos' : 0 < d + i := by omega
    rw [Nat.add_sub_assoc hpos, h.nameAt_eq hpred, h.punctAt_eq hpred]
    simp only [hpos, hpos']

/-! ## Words -/

theorem announce (hm : s.Moved b d s') (opener : Nat) :
    ({ s with constantOpeners := opener :: s.constantOpeners } : ScanState).Moved b d
      { s' with constantOpeners := (d + opener) :: s'.constantOpeners } := by
  obtain ⟨old, hopeners, hold⟩ := hm.constantOpeners
  refine { hm with constantOpeners := ⟨old, ?_, hold⟩ }
  show (d + opener) :: s'.constantOpeners = _
  rw [hopeners]
  rfl

theorem sizeQueryCut_eq (hm : s.Moved b d s') (h : b.Embeds b' d)
    (hhead : b.Visible b' d s.head) (hquery : b.wordInAt i sizeQueries = true) (close : Nat) :
    s'.sizeQueryCut b' (d + i) (d + close) = (s.sizeQueryCut b i close).shift d k := by
  have hi : i < b.size := Bracketed.lt_size_of_any hquery
  unfold sizeQueryCut
  rw [hm.context_eq h hhead, hm.inConstantContext_eq h hhead (Nat.le_of_lt hi),
    hm.incompleteTypes_eq hquery]
  rfl

theorem tryCut_eq (hm : s.Moved b d s') (h : b.Embeds b' d) (hhead : b.Visible b' d s.head)
    (hi : i ≤ b.size) : s'.tryCut b' (d + i) = (s.tryCut b i).shift d k := by
  unfold tryCut
  rw [hm.context_eq h hhead, hm.tryIsConstant_eq h hhead hi]
  rfl

theorem callCut_eq (hm : s.Moved b d s') (h : b.Embeds b' d) (hhead : b.Visible b' d s.head)
    (hi : b.Visible b' d i) (hgroup : ∀ g ∈ s.groups.head?, g.opener < b.size) (close : Nat) :
    s'.callCut b' (d + i) (d + close) = (s.callCut b i close).shift d k := by
  unfold callCut
  rw [hm.context_eq h hhead, h.followsArrow_eq hi, hm.startsParameter_eq h hi hgroup]
  rfl

theorem labelEnd?_eq (hm : s.Moved b d s') (h : b.Embeds b' d) (hname : b.nameAt i = true) :
    s'.labelEnd? b' (d + i) = (s.labelEnd? b i).map (d + ·) := by
  unfold labelEnd? startsStatement
  rw [hm.head_beq, hm.atTop_eq, hm.scope_kind, h.labelEnd?_eq hname]
  split <;> rfl

section Word

variable (hm : s.Moved b d s') (h : b.Embeds b' d) (hhead : s.head ≤ i)
  (hgroup : ∀ g ∈ s.groups.head?, g.opener < b.size) {word : Lexeme} (ht : b.at? i = some word)
  (hword : word.kind = .word)
include hm h hhead hgroup ht hword

theorem wordCuts : Echoes b d k (s.wordCuts b i word.text) (s'.wordCuts b' (d + i) word.text) := by
  have hname : b.nameAt i = true := by simp [Bracketed.nameAt, ht, Lexeme.isName, hword]
  have hi : i < b.size := Bracketed.lt_size_of_any hname
  have hvisible : b.Visible b' d i := Or.inl hi
  have hheadVisible : b.Visible b' d s.head := Or.inl (by omega)
  have hnext : b.Visible b' d (i + 1) := h.visible_succ_of_name hname
  unfold ScanState.wordCuts
  simp only [Nat.add_assoc, h.roundEnd?_eq hnext, h.punctAt_eq hnext, h.punctInAt_eq hnext,
    h.closer?_eq hnext, h.branchEnd_eq hname]
  split
  next =>
    cases b.roundEnd? (i + 1) with
    | none => exact ⟨hm, rfl⟩
    | some close =>
        refine ⟨hm.announce (i + 1), ?_⟩
        exact congrArg ([·]) (hm.span_eq h hheadVisible _ _ _)
  split
  next hquery =>
    have hquery' : b.wordInAt i sizeQueries = true := by
      simp only [Bracketed.wordInAt, ht, Option.any_some, Lexeme.isWordIn, hword]
      simpa using hquery
    cases b.roundEnd? (i + 1) with
    | none => exact ⟨hm, rfl⟩
    | some close => exact ⟨hm, congrArg ([·]) (hm.sizeQueryCut_eq h hheadVisible hquery' close)⟩
  split
  next =>
    split
    · exact ⟨hm.announce (i + 1), rfl⟩
    · exact ⟨hm, rfl⟩
  split
  next =>
    have hspan := hm.span_eq (k := k) h hheadVisible .branch i (branchEnd b i).1
    cases (branchEnd b i).2 with
    | none => exact ⟨hm, congrArg ([·]) hspan⟩
    | some opener => exact ⟨hm.announce opener, congrArg ([·]) hspan⟩
  split
  next =>
    split
    · exact ⟨hm, congrArg ([·]) (hm.tryCut_eq h hheadVisible (Nat.le_of_lt hi))⟩
    · exact ⟨hm, rfl⟩
  split
  next =>
    cases b.closer? (i + 1) with
    | none => exact ⟨hm, rfl⟩
    | some close =>
        exact ⟨hm, congrArg ([·]) (hm.callCut_eq h hheadVisible hvisible hgroup close)⟩
  next => exact ⟨hm, rfl⟩

theorem wordStep :
    (s.wordStep b i word.text).Echoes b d k (s'.wordStep b' (d + i) word.text) := by
  have hname : b.nameAt i = true := by simp [Bracketed.nameAt, ht, Lexeme.isName, hword]
  have hi : i < b.size := Bracketed.lt_size_of_any hname
  have hheadVisible : b.Visible b' d s.head := Or.inl (by omega)
  have hnext : b.Visible b' d (i + 1) := h.visible_succ_of_name hname
  have hlabel := hm.labelEnd?_eq h hname
  have haccess : atAccess b' s' (d + i) word.text = atAccess b s i word.text := by
    unfold atAccess startsStatement
    rw [hm.head_beq, hm.atTop_eq, hm.scope_kind, Nat.add_assoc, h.punctAt_eq hnext]
  cases hcase : atAccess b s i word.text with
  | true =>
      rw [wordStep_of_access hcase, wordStep_of_access (haccess.trans hcase)]
      exact ⟨rfl, { hm with head := rfl }, rfl⟩
  | false =>
      cases hcolon : s.labelEnd? b i with
      | some colon =>
          rw [hcolon] at hlabel
          rw [wordStep_of_label hcase hcolon, wordStep_of_label (haccess.trans hcase) hlabel]
          refine ⟨rfl, { hm with head := rfl }, ?_⟩
          exact congrArg ([·]) (hm.span_eq h hheadVisible _ _ _)
      | none =>
          rw [hcolon] at hlabel
          rw [wordStep_of_none hcase hcolon, wordStep_of_none (haccess.trans hcase) hlabel]
          exact ⟨rfl, hm.wordCuts h hhead hgroup ht hword⟩

end Word

/-! ## The step -/

theorem squareStep (hm : s.Moved b d s') (h : b.Embeds b' d) (hhead : s.head ≤ i)
    (hi : i < b.size) : (s.squareStep b i).Echoes b d k (s'.squareStep b' (d + i)) := by
  have hvisible : b.Visible b' d i := Or.inl hi
  have hheadVisible : b.Visible b' d s.head := Or.inl (by omega)
  have hattribute := h.attributeEnd?_eq hvisible
  cases hclose : b.attributeEnd? i with
  | some close =>
      rw [hclose] at hattribute
      rw [squareStep_of_some hclose, squareStep_of_some hattribute]
      exact ⟨rfl, hm, congrArg ([·]) (hm.span_eq h hheadVisible _ _ _)⟩
  | none =>
      rw [hclose] at hattribute
      rw [squareStep_of_none hclose, squareStep_of_none hattribute]
      have hlambda := hm.noteLambda (k := k) h hhead hi
      refine ⟨rfl, ?_, hlambda.cuts⟩
      rw [hlambda.state.opensArrayBound_eq h hvisible]
      exact hlambda.state.openGroup h hvisible _

theorem punctuatorStep (hm : s.Moved b d s') (h : b.Embeds b' d) (hhead : s.head ≤ i)
    (hi : i < b.size) (text : String) :
    Echoes b d k (s.punctuatorStep b i text) (s'.punctuatorStep b' (d + i) text) := by
  have hvisible : b.Visible b' d i := Or.inl hi
  unfold ScanState.punctuatorStep
  rw [hm.atTop_eq]
  split
  · exact ⟨hm.openGroup h hvisible false, rfl⟩
  split
  · exact ⟨hm.closeGroup h hvisible, rfl⟩
  split
  · exact hm.openBrace h hhead hi
  split
  · exact ⟨hm.closeBrace h hvisible, rfl⟩
  split
  · exact hm.endStatement h hhead hi
  · exact ⟨hm, rfl⟩

theorem step (hm : s.Moved b d s') (h : b.Embeds b' d) (hhead : s.head ≤ i)
    (hgroup : ∀ g ∈ s.groups.head?, g.opener < b.size) {t : Lexeme} (ht : b.at? i = some t) :
    (s.step b i t).Echoes b d k (s'.step b' (d + i) t) := by
  have hi : i < b.size := (Array.getElem?_eq_some_iff.1 ht).1
  have hheadVisible : b.Visible b' d s.head := Or.inl (by omega)
  unfold ScanState.step
  cases hkind : t.kind with
  | number => exact ⟨rfl, hm, congrArg ([·]) (hm.span_eq h hheadVisible _ _ _)⟩
  | word => exact hm.wordStep h hhead hgroup ht hkind
  | punctuator =>
      dsimp only
      split
      · exact hm.squareStep h hhead hi
      · exact ⟨rfl, hm.punctuatorStep h hhead hi t.text⟩
  | string | character | directive => exact ⟨rfl, hm, rfl⟩

end Moved

end ScanState

/-! ## The walk -/

/-- The walk over the longer file makes the steps of the file, moved, and goes on behind it. -/
theorem stepsFrom_append {b b' : Bracketed} {d i : Nat} {s : ScanState} (h : b.Embeds b' d)
    (hb : Boundary b i s) (k : Nat) : ∀ {s' : ScanState}, s.Moved b d s' → ∃ t t' : ScanState,
    Boundary b b.size t ∧ t.Moved b d t' ∧
      stepsFrom b' (d + i) s' =
        (stepsFrom b i s).map (fun e => (d + e.1, e.2.map (Cut.shift d k))) ++
          stepsFrom b' (d + b.size) t' := by
  fun_induction stepsFrom b i s with
  | case1 i s hi move ih =>
      intro s' hm
      have hgroup : ∀ g ∈ s.groups.head?, g.opener < b.size := by
        intro g hg
        exact Nat.lt_trans (hb.opener_lt h.nested hg) hi
      have hstep := hm.step (k := k) h hb.headLe.1 hgroup (Array.getElem?_eq_getElem hi)
      obtain ⟨t, t', hend, hmoved, hrest⟩ := ih (hb.step hi) hstep.outcome.state
      refine ⟨t, t', hend, hmoved, ?_⟩
      have hat : b'.at? (d + i) = some b.lexemes[i] :=
        (h.at?_of_lt hi).trans (Array.getElem?_eq_getElem hi)
      obtain ⟨hi', hlexeme⟩ := Array.getElem?_eq_some_iff.1 hat
      have hcuts : (s'.step b' (d + i) b.lexemes[i]).cuts = move.cuts.map (Cut.shift d k) :=
        hstep.outcome.cuts
      rw [stepsFrom, dif_pos hi', hlexeme]
      dsimp only
      rw [hstep.next, hrest, hcuts]
      rfl
  | case2 i s hi =>
      intro s' hm
      have hle := (hb.aligned h.nested).le_size
      obtain rfl : i = b.size := Nat.le_antisymm hle (Nat.le_of_not_lt hi)
      exact ⟨s, s', hb, hm, by simp⟩

end CxxFloor
