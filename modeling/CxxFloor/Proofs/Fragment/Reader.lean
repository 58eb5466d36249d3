/-
# What a reader hands out

A traversal is a scan that waits: what it has handed out and what it has left
always make up the fragments of the scan (`Traversal.left_of_next?`).  It
carries the state of its walk with it and shares nothing with the reader, so
starting over only has to forget it.

So whatever is asked of a reader, and however many readings were given up on
the way, the fragments since the last start are the first ones of the scan, and
all of them once an end was reported; and the diagnostics are unknown before
the first fragment is asked for and complete from then on
(`readings_start_over`).
-/
import CxxFloor.Fragment.Reader

namespace CxxFloor

/-! ## The steps of a walk -/

section Steps

variable {b : Bracketed} {i : Nat} {s : ScanState}

theorem stepsFrom_of_at? {lexeme : Lexeme} (h : b.at? i = some lexeme) :
    stepsFrom b i s = (i, (s.step b i lexeme).cuts) ::
      stepsFrom b (s.step b i lexeme).next (s.step b i lexeme).state := by
  obtain ⟨hi, rfl⟩ := Array.getElem?_eq_some_iff.1 h
  rw [stepsFrom, dif_pos hi]

theorem stepsFrom_of_at?_none (h : b.at? i = none) : stepsFrom b i s = [] := by
  rw [stepsFrom, dif_neg (Nat.not_lt.2 (Array.getElem?_eq_none_iff.1 h))]

theorem interleave_nil (number : Nat) (directives : List Nat) :
    interleave number directives [] = (List.range' number directives.length).map .directive := by
  cases directives <;> simp [interleave]

end Steps

/-! ## Traversals -/

namespace Traversal

variable {t t' : Traversal} {f : Fragment}

/-- The fragments that a traversal has still to hand out. -/
def left (t : Traversal) : List Fragment :=
  t.ready ++ (interleave t.number t.directives (stepsFrom t.brackets t.index t.state)).filterMap
    t.source.fragment?

theorem left_ofText (name text : String) : (ofText name text).left = (scan name text).fragments :=
  rfl

theorem filterMap_cons_toList {α β : Type} (g : α → Option β) (a : α) (as : List α) :
    (a :: as).filterMap g = (g a).toList ++ as.filterMap g := by
  cases h : g a <;> simp [h]

/-- The next preprocessor line is what is left first, if it stands before the next step. -/
theorem left_passLine {before : Nat} {rest : List Nat} (hready : t.ready = [])
    (hlines : t.directives = before :: rest)
    (hnext : t.brackets.at? t.index = none ∨ before ≤ t.index) :
    (t.passLine rest).left = t.left := by
  have hfirst : interleave t.number t.directives (stepsFrom t.brackets t.index t.state) =
      .directive t.number ::
        interleave (t.number + 1) rest (stepsFrom t.brackets t.index t.state) := by
    rw [hlines]
    cases hat : t.brackets.at? t.index with
    | none =>
        rw [stepsFrom_of_at?_none hat, interleave_nil, interleave_nil]
        rfl
    | some lexeme =>
        have hle : before ≤ t.index := hnext.resolve_left (by simp [hat])
        rw [stepsFrom_of_at? hat, interleave, if_pos hle]
  rw [left, left, hready, hfirst, filterMap_cons_toList]
  rfl

/-- The next step is what is left first, if no preprocessor line stands before it. -/
theorem left_passStep {lexeme : Lexeme} (hready : t.ready = [])
    (hat : t.brackets.at? t.index = some lexeme)
    (hlines : ∀ before ∈ t.directives.head?, ¬ before ≤ t.index) :
    (t.passStep lexeme).left = t.left := by
  have hfirst : interleave t.number t.directives (stepsFrom t.brackets t.index t.state) =
      (t.state.step t.brackets t.index lexeme).cuts ++
        interleave t.number t.directives (stepsFrom t.brackets
          (t.state.step t.brackets t.index lexeme).next
          (t.state.step t.brackets t.index lexeme).state) := by
    rw [stepsFrom_of_at? hat]
    cases hdirectives : t.directives with
    | nil => rw [interleave, interleave]; rfl
    | cons before rest =>
        rw [interleave, if_neg (hlines before (by rw [hdirectives]; rfl))]
  rw [left, left, hready, hfirst, List.filterMap_append]
  rfl

theorem left_of_advance? (hready : t.ready = []) (h : t.advance? = some t') : t'.left = t.left := by
  unfold advance? at h
  split at h
  · cases h
  next before rest hlines hat =>
    cases h
    exact left_passLine hready hlines (.inl hat)
  next lexeme hlines hat =>
    cases h
    exact left_passStep hready hat (by simp [hlines])
  next before rest lexeme hlines hat =>
    cases h
    split
    next hle => exact left_passLine hready hlines (.inr hle)
    next hlt => exact left_passStep hready hat (by simpa [hlines] using hlt)

theorem left_of_advance?_none (hready : t.ready = []) (h : t.advance? = none) : t.left = [] := by
  unfold advance? at h
  split at h
  next hlines hat => rw [left, hready, hlines, stepsFrom_of_at?_none hat, interleave_nil]; rfl
  all_goals cases h

theorem left_of_next? (h : t.next? = some (f, t')) : t.left = f :: t'.left := by
  fun_induction next? t with
  | case1 t g gs hready =>
      cases h
      rw [left, hready]
      rfl
  | case2 t hready u hu ih => rw [← left_of_advance? hready hu, ih h]
  | case3 => cases h

theorem left_of_next?_none (h : t.next? = none) : t.left = [] := by
  fun_induction next? t with
  | case1 => cases h
  | case2 t hready u hu ih => rw [← left_of_advance? hready hu, ih h]
  | case3 t hready hnone => exact left_of_advance?_none hready hnone

theorem drain_eq (t : Traversal) : t.drain.1 = t.left ∧ t.drain.2.left = [] := by
  fun_induction drain t with
  | case1 t hnone => exact ⟨(left_of_next?_none hnone).symm, left_of_next?_none hnone⟩
  | case2 t f t' hnext fs last hdrain ih =>
      rw [hdrain] at ih
      exact ⟨by rw [left_of_next? hnext, ← ih.1], ih.2⟩

end Traversal

/-! ## Readers -/

namespace Reader

/-- The fragments that an answer hands out. -/
def Response.fragments : Response → List Fragment
  | .next fragment? => fragment?.toList
  | .rest fragments => fragments
  | .started | .diagnostics _ => []

/-- The answer says that no fragment is left. -/
def Response.ReportsEnd : Response → Prop
  | .next none | .rest _ => True
  | .next (some _) | .started | .diagnostics _ => False

variable {r : Reader} {q : Request} {qs : List Request}

/-- The fragments that a reader has still to hand out. -/
def left (r : Reader) : List Fragment :=
  match r.reading with
  | .idle => []
  | .fresh => (CxxFloor.scan r.name r.text).fragments
  | .underway t => t.left

/-- The diagnostics of the text that a reader reads: those of its tokens, then those of its
brackets. -/
def known (r : Reader) : List Diagnostic :=
  tokenDiagnostics r.text.toList ++
    bracketDiagnostics (Source.ofText r.name r.text).words.toList

/-- While a walk is under way the diagnostics are known. -/
def Sound (r : Reader) : Prop := ∀ t, r.reading = .underway t → r.diagnostics = r.known

/-! ### One request -/

theorem next_of_idle (h : r.reading = .idle) : r.next = (none, r) := by
  unfold next begun
  rw [h]

theorem rest_of_idle (h : r.reading = .idle) : r.rest = ([], r) := by
  unfold rest begun
  rw [h]

theorem begun_of_started (hr : r.Sound) (h : r.reading ≠ .idle) :
    ∃ t, t.left = r.left ∧
      r.begun = (some t, { r with diagnostics := r.known }) := by
  obtain ⟨name, text, reading, diagnostics⟩ := r
  cases reading with
  | idle => exact absurd rfl h
  | fresh => exact ⟨_, Traversal.left_ofText name text, rfl⟩
  | underway t =>
      refine ⟨t, rfl, ?_⟩
      rw [← hr t rfl]
      rfl

theorem next_of_started (hr : r.Sound) (h : r.reading ≠ .idle) :
    ∃ t, t.left = r.left.tail ∧
      r.next = (r.left.head?, ⟨r.name, r.text, .underway t, r.known⟩) := by
  obtain ⟨t, ht, hbegun⟩ := begun_of_started hr h
  unfold next
  rw [hbegun, ← ht]
  cases hnext : t.next? with
  | none =>
      have hleft := Traversal.left_of_next?_none hnext
      exact ⟨t, by rw [hleft]; rfl, by simp [hnext, hleft, known]⟩
  | some next =>
      obtain ⟨f, t'⟩ := next
      have hleft := Traversal.left_of_next? hnext
      exact ⟨t', by rw [hleft]; rfl, by simp [hnext, hleft, known]⟩

theorem rest_of_started (hr : r.Sound) (h : r.reading ≠ .idle) :
    ∃ t, t.left = [] ∧ r.rest = (r.left, ⟨r.name, r.text, .underway t, r.known⟩) := by
  obtain ⟨t, ht, hbegun⟩ := begun_of_started hr h
  unfold rest
  rw [hbegun, ← ht, ← t.drain_eq.1]
  exact ⟨t.drain.2, t.drain_eq.2, rfl⟩

/-- What a request does to a reader. -/
inductive Asks (r : Reader) : Request → Response × Reader → Prop
  | start : Asks r .start (.started, r.start)
  | diagnostics : Asks r .diagnostics (.diagnostics r.diagnostics, r)
  | next {t : Traversal} (ht : t.left = r.left.tail) (h : r.reading ≠ .idle) :
      Asks r .next (.next r.left.head?, ⟨r.name, r.text, .underway t, r.known⟩)
  | rest {t : Traversal} (ht : t.left = []) (h : r.reading ≠ .idle) :
      Asks r .rest (.rest r.left, ⟨r.name, r.text, .underway t, r.known⟩)
  | idleNext (h : r.reading = .idle) : Asks r .next (.next none, r)
  | idleRest (h : r.reading = .idle) : Asks r .rest (.rest [], r)

theorem asks_ask (hr : r.Sound) (q : Request) : Asks r q (r.ask q) := by
  cases q with
  | start => exact .start
  | diagnostics => exact .diagnostics
  | next =>
      by_cases hidle : r.reading = .idle
      · rw [ask, next_of_idle hidle]
        exact .idleNext hidle
      · obtain ⟨t, ht, hnext⟩ := next_of_started hr hidle
        rw [ask, hnext]
        exact .next ht hidle
  | rest =>
      by_cases hidle : r.reading = .idle
      · rw [ask, rest_of_idle hidle]
        exact .idleRest hidle
      · obtain ⟨t, ht, hrest⟩ := rest_of_started hr hidle
        rw [ask, hrest]
        exact .rest ht hidle

namespace Asks

variable {a : Response × Reader}

theorem sound (h : Asks r q a) (hr : r.Sound) : a.2.Sound := by
  cases h with
  | start => exact fun t ht => nomatch ht
  | diagnostics => exact hr
  | next ht h => exact fun _ _ => rfl
  | rest ht h => exact fun _ _ => rfl
  | idleNext h => exact hr
  | idleRest h => exact hr

theorem known_eq (h : Asks r q a) : a.2.known = r.known := by
  cases h <;> rfl

theorem scan_eq (h : Asks r q a) :
    CxxFloor.scan a.2.name a.2.text = CxxFloor.scan r.name r.text := by
  cases h <;> rfl

theorem started (h : Asks r q a) (hr : r.reading ≠ .idle) : a.2.reading ≠ .idle := by
  cases h with
  | start => exact nofun
  | diagnostics => exact hr
  | next => exact nofun
  | rest => exact nofun
  | idleNext h => exact absurd h hr
  | idleRest h => exact absurd h hr

theorem left_eq (h : Asks r q a) (hq : q ≠ .start) : a.1.fragments ++ a.2.left = r.left := by
  cases h with
  | start => exact absurd rfl hq
  | diagnostics => rfl
  | @next t ht h =>
      show r.left.head?.toList ++ t.left = r.left
      rw [ht]
      cases r.left <;> rfl
  | @rest t ht h =>
      show r.left ++ t.left = r.left
      rw [ht, List.append_nil]
  | idleNext h => rfl
  | idleRest h => rfl

theorem left_of_reportsEnd (h : Asks r q a) (hend : a.1.ReportsEnd) : a.2.left = [] := by
  cases h with
  | start => exact hend.elim
  | diagnostics => exact hend.elim
  | @next t ht h =>
      show t.left = []
      rw [ht]
      cases hleft : r.left with
      | nil => rfl
      | cons f fs =>
          rw [hleft] at hend
          exact hend.elim
  | rest ht h => exact ht
  | idleNext h => rw [left, h]
  | idleRest h => rw [left, h]

/-- The diagnostics of a reader that was started become known when it is asked for a fragment. -/
theorem diagnostics_eq (h : Asks r q a) (hr : r.reading ≠ .idle) :
    a.2.diagnostics = if q = .next ∨ q = .rest then r.known else r.diagnostics := by
  cases h with
  | start => rfl
  | diagnostics => rfl
  | next => rfl
  | rest => rfl
  | idleNext h => exact absurd h hr
  | idleRest h => exact absurd h hr

end Asks

/-! ### Many requests -/

theorem length_serve (r : Reader) (qs : List Request) : (r.serve qs).1.length = qs.length := by
  induction qs generalizing r with
  | nil => rfl
  | cons q qs ih => exact congrArg (· + 1) (ih _)

theorem serve_append (r : Reader) (qs qs' : List Request) :
    r.serve (qs ++ qs') =
      ((r.serve qs).1 ++ ((r.serve qs).2.serve qs').1, ((r.serve qs).2.serve qs').2) := by
  induction qs generalizing r with
  | nil => rfl
  | cons q qs ih =>
      rw [List.cons_append, serve, ih]
      rfl

def handedOut (answers : List Response) : List Fragment := answers.flatMap (·.fragments)

theorem serve_induction {P : Reader → Prop} (hask : ∀ r q, P r → P (r.ask q).2) (hr : P r)
    (qs : List Request) : P (r.serve qs).2 := by
  induction qs generalizing r with
  | nil => exact hr
  | cons q qs ih => exact ih (hask r q hr)

theorem serve_left (hr : r.Sound) (hqs : .start ∉ qs) :
    handedOut (r.serve qs).1 ++ (r.serve qs).2.left = r.left := by
  induction qs generalizing r with
  | nil => rfl
  | cons q qs ih =>
      obtain ⟨hq, hqs⟩ := not_or.1 (mt List.mem_cons.2 hqs)
      have hask := asks_ask hr q
      rw [serve, handedOut, List.flatMap_cons, List.append_assoc]
      rw [← hask.left_eq (Ne.symm hq), ← ih (hask.sound hr) hqs]
      rfl

theorem serve_left_of_reportsEnd (hr : r.Sound) (hqs : .start ∉ qs)
    (hend : ∃ answer ∈ (r.serve qs).1, answer.ReportsEnd) : (r.serve qs).2.left = [] := by
  induction qs generalizing r with
  | nil =>
      obtain ⟨answer, hmem, -⟩ := hend
      exact absurd hmem List.not_mem_nil
  | cons q qs ih =>
      obtain ⟨hq, hqs⟩ := not_or.1 (mt List.mem_cons.2 hqs)
      have hask := asks_ask hr q
      have hsound := hask.sound hr
      obtain ⟨answer, hmem, hend⟩ := hend
      rcases List.mem_cons.1 hmem with rfl | hmem
      · have hleft := serve_left hsound hqs
        rw [hask.left_of_reportsEnd hend] at hleft
        exact (List.append_eq_nil_iff.1 hleft).2
      · exact ih hsound hqs ⟨answer, hmem, hend⟩

theorem serve_diagnostics (hr : r.Sound) (hstarted : r.reading ≠ .idle) (qs : List Request) :
    (r.serve qs).2.diagnostics =
      if .next ∈ qs ∨ .rest ∈ qs then r.known else r.diagnostics := by
  induction qs generalizing r with
  | nil => rfl
  | cons q qs ih =>
      have hask := asks_ask hr q
      rw [serve, ih (hask.sound hr) (hask.started hstarted), hask.known_eq,
        hask.diagnostics_eq hstarted]
      simp only [List.mem_cons]
      grind

def Advanced (qs : List Request) : Prop :=
  [.start, .next].Sublist qs ∨ [.start, .rest].Sublist qs

instance (qs : List Request) : Decidable (Advanced qs) :=
  inferInstanceAs (Decidable (_ ∨ _))

theorem advanced_cons_start (qs : List Request) :
    Advanced (.start :: qs) ↔ .next ∈ qs ∨ .rest ∈ qs := by
  simp [Advanced]

theorem advanced_cons (hq : q ≠ .start) (qs : List Request) : Advanced (q :: qs) ↔ Advanced qs := by
  simp [Advanced, List.sublist_cons_iff, hq.symm]

theorem ask_of_idle (h : r.reading = .idle) (hq : q ≠ .start) : (r.ask q).2 = r := by
  cases q with
  | start => exact absurd rfl hq
  | next => rw [ask, next_of_idle h]
  | rest => rw [ask, rest_of_idle h]
  | diagnostics => rfl

theorem serve_diagnostics_of_idle (h : r.reading = .idle) (qs : List Request) :
    (r.serve qs).2.diagnostics = if Advanced qs then r.known else r.diagnostics := by
  induction qs generalizing r with
  | nil => rfl
  | cons q qs ih =>
      by_cases hq : q = .start
      · subst hq
        rw [serve, serve_diagnostics (r := (r.ask .start).2) nofun nofun]
        simp only [advanced_cons_start]
        rfl
      · rw [serve, ask_of_idle h hq, ih h]
        simp only [advanced_cons hq]

theorem scan_serve (hr : r.Sound) (qs : List Request) :
    CxxFloor.scan (r.serve qs).2.name (r.serve qs).2.text = CxxFloor.scan r.name r.text := by
  have hkept := serve_induction (r := r)
    (P := fun r' => r'.Sound ∧ CxxFloor.scan r'.name r'.text = CxxFloor.scan r.name r.text)
    (fun r' q h => have hask := asks_ask h.1 q
      ⟨hask.sound h.1, hask.scan_eq.trans h.2⟩) ⟨hr, rfl⟩ qs
  exact hkept.2

/-- Behind a start the whole scan is left, whatever was asked for before it. -/
theorem left_start_serve (name text : String) (qs : List Request) :
    ((ofText name text).serve qs).2.start.left = (CxxFloor.scan name text).fragments :=
  congrArg Scan.fragments (scan_serve (r := ofText name text) nofun qs)

/-- The answers since a start are those of the reader that was started over. -/
theorem drop_serve (r : Reader) (before since : List Request) :
    (r.serve (before ++ .start :: since)).1.drop (before.length + 1) =
      ((r.serve before).2.start.serve since).1 := by
  rw [serve_append, ← length_serve r before, List.drop_length_add_append]
  rfl

end Reader

open Reader in
/-- Whatever is asked of a reader, the fragments it has handed out since its last start are the
first ones of the scan, and all of them once it has reported an end.  Its diagnostics are unknown
until a fragment is asked for behind a start; then they are those of the tokens followed by those
of the brackets. -/
theorem readings_start_over (name text : String) (requests : List Request) :
    (∀ before since, requests = before ++ .start :: since → .start ∉ since →
      let answers := ((ofText name text).serve requests).1.drop (before.length + 1)
      handedOut answers <+: (scan name text).fragments ∧
        ((∃ answer ∈ answers, answer.ReportsEnd) →
          handedOut answers = (scan name text).fragments)) ∧
      ((ofText name text).serve requests).2.diagnostics =
        if Advanced requests then
          tokenDiagnostics text.toList ++
            bracketDiagnostics (Source.ofText name text).words.toList
        else [] := by
  refine ⟨fun before since hrequests hsince => ?_, serve_diagnostics_of_idle rfl requests⟩
  have hfresh : ((ofText name text).serve before).2.start.Sound := nofun
  have hleft := serve_left hfresh hsince
  rw [left_start_serve] at hleft
  rw [hrequests, drop_serve]
  refine ⟨⟨_, hleft⟩, fun hend => ?_⟩
  rw [serve_left_of_reportsEnd hfresh hsince hend, List.append_nil] at hleft
  exact hleft

open Reader in
/-- A reader of two statements and an open bracket, started over behind its first fragment. -/
theorem readings_start_over_abandoned :
    let requests : List Request := [.start, .next, .start, .next, .rest]
    let reader := ofText "a" "x; y; ("
    handedOut ((reader.serve requests).1.drop 3) = (scan "a" "x; y; (").fragments ∧
      (reader.serve requests).2.diagnostics = [⟨1, 7, "Unclosed '('"⟩] := by
  have hover := readings_start_over "a" "x; y; (" [.start, .next, .start, .next, .rest]
  refine ⟨(hover.1 [.start, .next] [.next, .rest] rfl (by decide)).2
    ⟨_, List.mem_cons_of_mem _ (List.mem_singleton.2 rfl), trivial⟩, ?_⟩
  rw [hover.2, if_pos (by decide)]
  decide +kernel

end CxxFloor
