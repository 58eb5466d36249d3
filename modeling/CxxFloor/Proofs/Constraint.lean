/-
# Constrained classes

A head is told by the first word behind its template headers.  If a
requires-clause stands there, that word is `requires`, which is the key of no
class: so the brace of a constrained class opens no class and no other scope of
declarations, and what stands in it is not cut out as declarations, operators or
members, unless a brace inside opens such a scope again
(`constraint_hides_declarations`).  Without the clause the same brace opens a
class.
-/
import CxxFloor.Proofs.Embedding.Head
import CxxFloor.Proofs.Scope.Heads
import CxxFloor.Proofs.Scope.Origin

namespace CxxFloor

/-! ## The head -/

namespace Bracketed

variable {b : Bracketed} {k start stop : Nat}

theorem range_of_templateHeaderEnd? (h : b.templateHeaderEnd? start stop = some k) :
    start < stop ∧ k < stop := by
  obtain ⟨-, -, hangle, hk⟩ := templateHeaderEnd?_eq_some.1 h
  have := le_of_angleEnd? hangle
  exact ⟨by omega, hk⟩

theorem bodyStart_of_header (h : b.templateHeaderEnd? start stop = some k) :
    (b.headFront start stop).bodyStart = (b.headFront (k + 1) stop).bodyStart := by
  rw [headFront_def, if_pos (range_of_templateHeaderEnd? h).1, h]

/-- The front of a head ends before a word that starts no header and is no leading specifier. -/
theorem bodyStart_of_word {words : List String} (h : b.wordInAt k words = true)
    (hwords : ∀ word ∈ words, word ∉ "template" :: leadingSpecifiers) :
    (b.headFront k stop).bodyStart = k := by
  obtain ⟨t, ht, hkind, htext⟩ := wordInAt_iff.1 h
  have hno := hwords _ htext
  simp only [List.mem_cons, not_or] at hno
  have hheader : b.templateHeaderEnd? k stop = none := by
    simp [templateHeaderEnd?, wordAt, ht, Lexeme.isWord, hno.1]
  have hattribute : b.attributeEnd? k = none := by
    simp [attributeEnd?, punctAt, ht, Lexeme.isPunct, hkind]
  have hspecifier : b.wordInAt k leadingSpecifiers = false := by
    simp [wordInAt, ht, Lexeme.isWordIn, hno.2]
  rw [headFront_def, hheader, hattribute, hspecifier]
  split <;> rfl

end Bracketed

namespace ScanState

variable {b : Bracketed} {s : ScanState} {i k : Nat}

/-- A head whose body starts with a requires-clause announces no scope of declarations. -/
theorem holdsDeclarations_of_requires {kind : ScopeKind}
    (hclause : b.wordInAt (s.bodyOfHead b i) ["requires"] = true)
    (h : (b.head s.scope s.head i).kind = some kind) : kind.holdsDeclarations = false := by
  have hother : ∀ words, (∀ word ∈ ["requires"], word ∉ words) →
      b.wordInAt (s.bodyOfHead b i) words = false :=
    fun _ => Bracketed.wordInAt_of_disjoint hclause
  have hnamespace := hother ["namespace"] (by decide)
  have hlinkage := hother ["extern"] (by decide)
  have hcontrol := hother controlKeywords (by decide)
  have hclass := hother (classKeys ++ ["enum"]) (by decide)
  simp only [bodyOfHead] at hnamespace hlinkage hcontrol hclass
  simp only [Bracketed.head, Bracketed.wordAt_eq_wordInAt, hnamespace, hlinkage, hcontrol, hclass,
    Bool.false_and, Bool.or_self, Bool.false_eq_true, if_false] at h
  -- what is left is a block, a function or an initialiser
  repeat' split at h
  all_goals
    cases h
    try rfl

/-- A head whose body starts with a class key and holds no initialiser announces a class. -/
theorem isClass_of_key (hkey : b.wordInAt (s.bodyOfHead b i) classKeys = true)
    (hlt : s.bodyOfHead b i < i)
    (hplain : b.hasInitializer (s.bodyOfHead b i) (s.endOfHead b i) = false) :
    ∃ kind, (b.head s.scope s.head i).kind = some kind ∧ kind.isClass = true := by
  have hkeys := Bracketed.key_of_classKey hkey
  have hbefore : s.bodyOfHead b i < s.endOfHead b i := by
    simp only [endOfHead, Bracketed.withoutTry]
    split
    next htry =>
      -- the key itself is no `try`
      have hne : s.bodyOfHead b i ≠ i - 1 := by
        intro heq
        have hno : b.wordInAt (s.bodyOfHead b i) ["try"] = false :=
          Bracketed.wordInAt_of_disjoint hkey (by decide)
        rw [← heq, Bracketed.wordAt_eq_wordInAt, hno, Bool.and_false] at htry
        cases htry
      omega
    next => exact hlt
  exact ⟨_, (head_of_key hkeys hbefore hplain).1,
    (Bracketed.isClass_classScope hkeys).trans hkey⟩

end ScanState

/-! ## The body -/

namespace Boundary

variable {b : Bracketed} {i j : Nat} {s t : ScanState}

/-- Outside all groups, every open bracket that is not the scope's own stands before it. -/
theorem le_opener (h : Boundary b j t) (hb : b.Nested) (htop : t.groups = [])
    (hopen : i ∈ b.pairs.openAt j) : t.scope ∈ t.scopes ∧ i ≤ t.scope.opener := by
  have hsorted := b.pairs.openAt_sorted j
  rw [← (h.aligned hb).openers_eq] at hopen hsorted
  cases hscopes : t.scopes with
  | nil => simp [ScanState.openers, htop, hscopes] at hopen
  | cons scope outer =>
      have hopeners : t.openers = (outer.reverse.flatMap Scope.openers ++
          (ScanState.resumedGroups scope).reverse.map (·.opener)) ++ [scope.opener] := by
        simp [ScanState.openers, htop, hscopes, Scope.openers, ScanState.resumedGroups]
      rw [ScanState.scope, hscopes]
      refine ⟨List.mem_cons_self, ?_⟩
      rw [hopeners] at hopen hsorted
      rcases List.mem_append.1 hopen with hinner | hlast
      · exact Nat.le_of_lt ((List.pairwise_append.1 hsorted).2.2 i hinner _ List.mem_cons_self)
      · exact Nat.le_of_eq (List.mem_singleton.1 hlast)

/-- Where a brace opens no scope of declarations, what is cut from the statements between the
braces is cut in a scope that opens there. -/
theorem cut_in_inner_scope (h : Boundary b j t) (hb : b.Nested) (hopen : i ∈ b.pairs.openAt j)
    (hscope : ∀ scope, b.Opens scope → scope.opener = i → scope.kind.holdsDeclarations = false)
    {u : Lexeme} {cut : Cut} (hcut : cut ∈ (t.step b j u).cuts)
    (hkind : cut.kind.ofStatement = true) :
    ∃ inner, b.HasOpen j inner ∧ i < inner.opener ∧ inner.kind.holdsDeclarations = true := by
  obtain ⟨htop, hholds⟩ := ScanState.top_of_statement hcut hkind
  obtain ⟨hmem, hle⟩ := h.le_opener hb htop hopen
  refine ⟨t.scope, (h.mem_scopes_iff hb).1 hmem, Nat.lt_of_le_of_ne hle fun heq => ?_, hholds⟩
  rw [hscope t.scope (h.opens_of_mem hb _ hmem) heq.symm] at hholds
  cases hholds

end Boundary

/-- In every text, the first word behind a template header decides what a brace hides.  If it is
`requires`, the brace opens no scope of declarations, and whatever declaration, operator or member
of a union a step between the braces cuts is cut in a scope that a brace in between opens.  If it is
a class key, the brace opens a class unless an initialiser stands before it. -/
theorem constraint_hides_declarations {text : String} {i k : Nat} {s : ScanState}
    (h : Boundary (.ofText text) i s)
    (hheader : (Bracketed.ofText text).templateHeaderEnd? s.head i = some k) :
    ((Bracketed.ofText text).wordInAt (k + 1) ["requires"] = true →
      (∀ scope, (Bracketed.ofText text).Opens scope → scope.opener = i →
        scope.kind.holdsDeclarations = false) ∧
      ∀ (j : Nat) (t : ScanState) (hj : j < (Bracketed.ofText text).lexemes.size),
        Boundary (.ofText text) j t → i ∈ (Bracketed.ofText text).pairs.openAt j →
        ∀ cut ∈ (t.step (.ofText text) j (Bracketed.ofText text).lexemes[j]).cuts,
          cut.kind.ofStatement = true →
          ∃ inner, (Bracketed.ofText text).HasOpen j inner ∧ i < inner.opener ∧
            inner.kind.holdsDeclarations = true) ∧
    ((Bracketed.ofText text).wordInAt (k + 1) classKeys = true → s.ReadsHead (.ofText text) i →
      (Bracketed.ofText text).hasInitializer (k + 1) (s.endOfHead (.ofText text) i) = false →
      ∃ scope, (Bracketed.ofText text).Opens scope ∧ scope.opener = i ∧
        scope.kind.isClass = true) := by
  have hb : (Bracketed.ofText text).Nested := Bracketed.nested_ofLexemes _
  have hbody : ∀ words, (Bracketed.ofText text).wordInAt (k + 1) words = true →
      (∀ word ∈ words, word ∉ "template" :: leadingSpecifiers) →
      s.bodyOfHead (.ofText text) i = k + 1 := by
    intro words hword hwords
    exact (Bracketed.bodyStart_of_header hheader).trans (Bracketed.bodyStart_of_word hword hwords)
  refine ⟨?_, ?_⟩
  · intro hclause
    have hbody := hbody _ hclause (by decide)
    have hscope : ∀ scope, (Bracketed.ofText text).Opens scope → scope.opener = i →
        scope.kind.holdsDeclarations = false := by
      rintro scope hopens rfl
      rcases h.head_of_opens hopens with hlambda | ⟨-, hkind, -⟩
      · rw [hlambda]
        rfl
      · exact ScanState.holdsDeclarations_of_requires (hbody ▸ hclause) hkind
    refine ⟨hscope, ?_⟩
    intro j t hj ht hopen cut hcut hkind
    exact ht.cut_in_inner_scope hb hopen hscope hcut hkind
  · intro hkey hbrace hplain
    have hbody := hbody _ hkey (by decide)
    have hlt : k + 1 < i := by
      -- a word and a brace are two tokens
      have hne : k + 1 ≠ i := by
        rintro rfl
        obtain ⟨t, ht, hword, -⟩ := Bracketed.wordInAt_iff.1 hkey
        obtain ⟨u, hu, hpunct⟩ := Bracketed.punctAt_iff.1 hbrace.brace
        rw [ht] at hu
        cases hu
        simp [Lexeme.isPunct, hword] at hpunct
      have := (Bracketed.range_of_templateHeaderEnd? hheader).2
      omega
    rw [← hbody] at hkey hlt hplain
    obtain ⟨kind, hkind, hclass⟩ := ScanState.isClass_of_key hkey hlt hplain
    obtain ⟨scope, hopens, hopener, hscope, -⟩ := h.opens_of_head hbrace hkind
    exact ⟨scope, hopens, hopener, hscope ▸ hclass⟩

/-- The brace of a constrained record. -/
theorem constraint_hides_declarations_record :
    ∃ (text : String) (s : ScanState),
      text = "template <class T> requires C<T> struct S \x7b int f(); \x7d;" ∧
      Boundary (.ofText text) 12 s ∧
      (Bracketed.ofText text).templateHeaderEnd? s.head 12 = some 4 ∧
      (Bracketed.ofText text).wordInAt 5 ["requires"] = true ∧
      ∀ scope, (Bracketed.ofText text).Opens scope → scope.opener = 12 →
        scope.kind.holdsDeclarations = false := by
  refine ⟨_, ((Bracketed.ofText
    "template <class T> requires C<T> struct S \x7b int f(); \x7d;").after 12).2, rfl, ?_⟩
  have hindex : ((Bracketed.ofText
      "template <class T> requires C<T> struct S \x7b int f(); \x7d;").after 12).1 = 12 := by
    decide +kernel
  have h := Boundary.after
    (.ofText "template <class T> requires C<T> struct S \x7b int f(); \x7d;") 12
  rw [hindex] at h
  have hheader : (Bracketed.ofText
      "template <class T> requires C<T> struct S \x7b int f(); \x7d;").templateHeaderEnd?
        ((Bracketed.ofText
          "template <class T> requires C<T> struct S \x7b int f(); \x7d;").after 12).2.head 12 =
      some 4 := by
    decide +kernel
  have hclause : (Bracketed.ofText
      "template <class T> requires C<T> struct S \x7b int f(); \x7d;").wordInAt 5 ["requires"] =
      true := by
    decide +kernel
  exact ⟨h, hheader, hclause, ((constraint_hides_declarations h hheader).1 hclause).1⟩

/-- A member of a union is cut out, and is no longer once the union is constrained. -/
theorem constrained_union_hides_member :
    (∃ f ∈ (scan "a.cpp" "template <class T> union U \x7b int a = 0; \x7d;").fragments,
      f.kind = .unionMember ∧ f.text = "int a = 0") ∧
    ∀ f ∈ (scan "a.cpp" "template <class T> requires C<T> union U \x7b int a = 0; \x7d;").fragments,
      f.kind ≠ .unionMember ∧ f.text ≠ "int a = 0" := by
  refine ⟨?_, ?_⟩
  all_goals
    rw [scan_fragments_eq (by decide +kernel)]
    decide +kernel

end CxxFloor
