/-
# What a brace opens

A brace that opens a scope enters the body of a lambda that was announced, or
opens what its head says (`Boundary.head_of_opens`).  An announced body is a
lambda's (`Boundary.lambdasAhead`), so all other scopes can be told from their
heads.  A class is defined by a head whose body starts with a class key, and is
called by the first name behind the key, whatever stands behind that name
(`Boundary.defines_iff`).
-/
import CxxFloor.Proofs.Scope.History
import CxxFloor.Proofs.Scope.Reads

namespace CxxFloor

/-! ## Announced bodies -/

/-- The scopes that were announced and not reached are bodies of lambdas. -/
def ScanState.LambdasAhead (s : ScanState) : Prop := ∀ body ∈ s.lambdaBodies, body.kind = .lambda

theorem Bracketed.lambda_of_lambdaAhead {b : Bracketed} {enclosing body : Scope} {i : Nat}
    (h : (b.lambdaAhead enclosing i).body = some body) : body.kind = .lambda := by
  have hfinish : ∀ {j : Nat} {template : Bool} {names? : Option (List String)},
      lambdaAhead.finish b enclosing j template names? = some body → body.kind = .lambda := by
    intro j template names? h
    simp only [lambdaAhead.finish] at h
    split at h
    · split at h
      · cases h
        rfl
      · cases h
    · cases h
  simp only [lambdaAhead] at h
  split at h
  · cases h
  split at h
  · cases h
  split at h
  · split at h
    · cases h
    · exact hfinish h
  · exact hfinish h

namespace ScanState.LambdasAhead

variable {b : Bracketed} {s s' : ScanState} {i : Nat}

theorem keep (h : s.LambdasAhead) (hbodies : s'.lambdaBodies ⊆ s.lambdaBodies) :
    s'.LambdasAhead :=
  fun body hbody => h body (hbodies hbody)

theorem openGroup (h : s.LambdasAhead) (constant : Bool) :
    (s.openGroup b i constant).LambdasAhead := by
  simp only [ScanState.openGroup]
  split <;> exact h

theorem closeGroup (h : s.LambdasAhead) : (s.closeGroup b i).LambdasAhead := by
  simp only [ScanState.closeGroup]
  split <;> exact h

theorem openBrace (h : s.LambdasAhead) : (s.openBrace b i).1.LambdasAhead := by
  simp only [ScanState.openBrace]
  split
  · exact h
  split
  · exact h.keep (List.filter_subset_self _)
  split
  · exact h.openGroup false
  split
  · exact h.openGroup _
  · exact h

theorem closeBrace (h : s.LambdasAhead) : (s.closeBrace b i).LambdasAhead := by
  simp only [ScanState.closeBrace]
  split
  · split <;> exact h
  split
  · exact h.closeGroup
  · simp only [ScanState.closeScope]
    split
    · exact h
    · split <;> exact h

theorem endStatement (h : s.LambdasAhead) : (s.endStatement b i).1.LambdasAhead := by
  simp only [ScanState.endStatement, ScanState.noteForward]
  repeat' split
  all_goals exact h

theorem noteLambda (h : s.LambdasAhead) : (s.noteLambda b i).1.LambdasAhead := by
  simp only [ScanState.noteLambda]
  split
  · split
    next body hbody =>
      intro body' hbody'
      rcases List.mem_cons.1 hbody' with rfl | hbody'
      · exact Bracketed.lambda_of_lambdaAhead hbody
      · exact h body' hbody'
    next => exact h
  · exact h

theorem wordStep (h : s.LambdasAhead) (text : String) :
    (s.wordStep b i text).state.LambdasAhead := by
  simp only [ScanState.wordStep, ScanState.wordCuts]
  repeat' split
  all_goals exact h

theorem step (h : s.LambdasAhead) (t : Lexeme) : (s.step b i t).state.LambdasAhead := by
  simp only [ScanState.step]
  cases t.kind with
  | word => exact h.wordStep t.text
  | punctuator =>
      dsimp only
      split
      · simp only [ScanState.squareStep]
        split
        · exact h
        · exact h.noteLambda.openGroup _
      · simp only [ScanState.punctuatorStep, Move.one]
        repeat' split
        · exact h.openGroup false
        · exact h.closeGroup
        · exact h.openBrace
        · exact h.closeBrace
        · exact h.endStatement
        · exact h
  | number | string | character | directive => exact h

end ScanState.LambdasAhead

theorem Boundary.lambdasAhead {b : Bracketed} {i : Nat} {s : ScanState} (h : Boundary b i s) :
    s.LambdasAhead := by
  induction h with
  | start =>
      intro body hbody
      exact absurd hbody List.not_mem_nil
  | step h hi ih => exact ih.step _

/-! ## Heads -/

/-- The brace at index `i` is read with its head: it has a partner, starts no announced body, and
no group is open. -/
structure ScanState.ReadsHead (b : Bracketed) (s : ScanState) (i : Nat) : Prop where
  brace : b.punctAt i "\x7b" = true
  paired : (b.pairs.partner? i).isSome = true
  unannounced : ∀ body ∈ s.lambdaBodies, body.opener ≠ i
  top : s.groups = []

/-- The head that ends at index `i` starts the definition of a class with this name: with a class
key, an initialiser nowhere behind it, and the name as the first one. -/
structure ScanState.HeadsClass (b : Bracketed) (s : ScanState) (i : Nat) (name : String) :
    Prop where
  before : s.bodyOfHead b i < s.endOfHead b i
  key : b.wordInAt (s.bodyOfHead b i) classKeys = true
  plain : b.hasInitializer (s.bodyOfHead b i) (s.endOfHead b i) = false
  named : b.className? (s.bodyOfHead b i + 1) (s.endOfHead b i) = some name

namespace Bracketed

variable {b : Bracketed} {i : Nat}

theorem wordInAt_iff {words : List String} :
    b.wordInAt i words = true ↔ ∃ t, b.at? i = some t ∧ t.kind = .word ∧ t.text ∈ words := by
  simp [wordInAt, Option.any_eq_true, Lexeme.isWordIn]

theorem wordAt_eq_wordInAt {word : String} : b.wordAt i word = b.wordInAt i [word] := by
  simp [wordAt, wordInAt, Lexeme.isWord, Lexeme.isWordIn, beq_eq_decide]

theorem wordInAt_of_disjoint {words words' : List String} (h : b.wordInAt i words = true)
    (hdisjoint : ∀ word ∈ words, word ∉ words') : b.wordInAt i words' = false := by
  obtain ⟨t, ht, -, htext⟩ := wordInAt_iff.1 h
  simp [wordInAt, ht, Lexeme.isWordIn, hdisjoint _ htext]

theorem key_of_classKey (h : b.wordInAt i classKeys = true) :
    b.wordInAt i (classKeys ++ ["enum"]) = true := by
  obtain ⟨t, ht, hkind, htext⟩ := wordInAt_iff.1 h
  exact wordInAt_iff.2 ⟨t, ht, hkind, List.mem_append_left _ htext⟩

/-- A key opens a class unless it is that of an enumeration. -/
theorem isClass_classScope (h : b.wordInAt i (classKeys ++ ["enum"]) = true) :
    (classScope (b.at? i)).isClass = b.wordInAt i classKeys := by
  obtain ⟨t, ht, hkind, htext⟩ := wordInAt_iff.1 h
  simp only [classKeys, List.cons_append, List.nil_append, List.mem_cons, List.not_mem_nil,
    or_false] at htext
  rcases htext with htext | htext | htext | htext <;>
    simp [wordInAt, ht, Lexeme.isWordIn, hkind, htext, classScope, classKeys, ScopeKind.isClass]

end Bracketed

namespace ScanState

variable {b : Bracketed} {s : ScanState} {i : Nat} {name : String}

/-- What a head says whose body starts with the key of a class or an enumeration. -/
theorem head_of_key (hkey : b.wordInAt (s.bodyOfHead b i) (classKeys ++ ["enum"]) = true)
    (hbefore : s.bodyOfHead b i < s.endOfHead b i)
    (hplain : b.hasInitializer (s.bodyOfHead b i) (s.endOfHead b i) = false) :
    (b.head s.scope s.head i).kind = some (Bracketed.classScope (b.at? (s.bodyOfHead b i))) ∧
      (b.head s.scope s.head i).name = b.className? (s.bodyOfHead b i + 1) (s.endOfHead b i) := by
  -- the keys are none of the words that are asked for before them
  have hother : ∀ words, (∀ word ∈ classKeys ++ ["enum"], word ∉ words) →
      b.wordInAt (s.bodyOfHead b i) words = false :=
    fun _ => Bracketed.wordInAt_of_disjoint hkey
  have hnamespace := hother ["namespace"] (by decide)
  have hlinkage := hother ["extern"] (by decide)
  have hcontrol := hother controlKeywords (by decide)
  simp only [bodyOfHead, endOfHead] at hkey hbefore hplain hnamespace hlinkage hcontrol ⊢
  simp only [Bracketed.head, if_neg (Nat.not_le.2 hbefore), Bracketed.wordAt_eq_wordInAt,
    hnamespace, hlinkage, hcontrol, hkey, hplain, Bool.false_and, Bool.or_self,
    Bool.false_eq_true, Bool.not_false, Bool.and_self, if_true, if_false, and_self]

/-- Only a head with such a key says a name. -/
theorem key_of_head (h : (b.head s.scope s.head i).name = some name) :
    b.wordInAt (s.bodyOfHead b i) (classKeys ++ ["enum"]) = true ∧
      s.bodyOfHead b i < s.endOfHead b i ∧
      b.hasInitializer (s.bodyOfHead b i) (s.endOfHead b i) = false := by
  simp only [Bracketed.head] at h
  split at h
  · cases h
  next hbefore =>
  split at h
  · cases h
  split at h
  · split at h <;> cases h
  split at h
  next hclass =>
    simp only [Bool.and_eq_true, Bool.not_eq_true'] at hclass
    exact ⟨hclass.1, Nat.not_le.1 hbefore, hclass.2⟩
  next =>
    repeat' split at h
    all_goals cases h

/-- A head announces a class with a name exactly if its body starts with a class key and the first
name behind the key is this one. -/
theorem class_head_iff :
    (b.head s.scope s.head i).kind.any (·.isClass) = true ∧
        (b.head s.scope s.head i).name = some name ↔ s.HeadsClass b i name := by
  constructor
  · rintro ⟨hkind, hname⟩
    obtain ⟨hkey, hbefore, hplain⟩ := key_of_head hname
    obtain ⟨hkind', hname'⟩ := head_of_key hkey hbefore hplain
    rw [hkind', Option.any_some, Bracketed.isClass_classScope hkey] at hkind
    exact ⟨hbefore, hkind, hplain, hname' ▸ hname⟩
  · rintro ⟨hbefore, hkey, hplain, hnamed⟩
    have hkeys := Bracketed.key_of_classKey hkey
    obtain ⟨hkind, hname⟩ := head_of_key hkeys hbefore hplain
    rw [hkind, hname, Option.any_some, Bracketed.isClass_classScope hkeys]
    exact ⟨hkey, hnamed⟩

/-- A brace that is read with its head enters what the head says. -/
theorem ReadsHead.openBrace_eq (h : s.ReadsHead b i) {kind : ScopeKind}
    (hkind : (b.head s.scope s.head i).kind = some kind) :
    s.openBrace b i = (s.enterScope i kind (b.head s.scope s.head i),
      if kind == .function && s.scope.kind.holdsDeclarations then s.declarationCuts b s.head i
      else []) := by
  have hnone : s.lambdaBodies.find? (·.opener = i) = none := by simpa using h.unannounced
  simp [ScanState.openBrace, Option.isSome_iff_ne_none.1 h.paired, hnone, ScanState.atTop, h.top,
    hkind]

end ScanState

/-! ## What opens -/

namespace Boundary

variable {b : Bracketed} {i : Nat} {s : ScanState}

/-- A scope is the body of a lambda, or what the head of its brace says. -/
theorem head_of_opens {scope : Scope} (h : Boundary b scope.opener s) (hopens : b.Opens scope) :
    scope.kind = .lambda ∨ s.ReadsHead b scope.opener ∧
      (b.head s.scope s.head scope.opener).kind = some scope.kind ∧
      (b.head s.scope s.head scope.opener).name = scope.name := by
  obtain ⟨s', h', hbrace, hscopes⟩ := hopens
  obtain rfl := h.unique h'
  simp only [ScanState.openBrace] at hscopes
  split at hscopes
  · exact absurd hscopes (List.cons_ne_self _ _).symm
  next hpaired =>
  split at hscopes
  next body hbody =>
    have heq := (List.cons.inj hscopes).1
    exact .inl (heq ▸ h.lambdasAhead body (List.mem_of_find?_eq_some hbody))
  next hnone =>
  have hgroup : ∀ constant, (s.openGroup b scope.opener constant).scopes ≠ scope :: s.scopes := by
    intro constant
    rw [(ScanState.SameRecords.openGroup b s scope.opener constant).scopes]
    exact (List.cons_ne_self _ _).symm
  split at hscopes
  · exact absurd hscopes (hgroup false)
  next htop =>
  split at hscopes
  · exact absurd hscopes (hgroup _)
  next kind hkind =>
    have heq := (List.cons.inj hscopes).1
    refine .inr ⟨⟨hbrace, ?_, ?_, ?_⟩, ?_, ?_⟩
    · simpa [Option.isNone_iff_eq_none, Option.isSome_iff_ne_none] using hpaired
    · simpa using hnone
    · simpa [ScanState.atTop] using htop
    · rw [hkind, ← heq]
    · rw [← heq]

/-- A scope that is no lambda is entered as its head says. -/
theorem enterScope_of_opens {scope : Scope} (h : Boundary b scope.opener s) (hopens : b.Opens scope)
    (hkind : scope.kind ≠ .lambda) :
    (b.head s.scope s.head scope.opener).kind = some scope.kind ∧
      (s.enterScope scope.opener scope.kind (b.head s.scope s.head scope.opener)).scopes =
        scope :: s.scopes := by
  obtain ⟨hreads, hhead, -⟩ := (h.head_of_opens hopens).resolve_left hkind
  obtain ⟨s', h', -, hscopes⟩ := hopens
  obtain rfl := h.unique h'
  rw [hreads.openBrace_eq hhead] at hscopes
  exact ⟨hhead, hscopes⟩

theorem lambda_of_resume {scope : Scope} (hb : b.Nested) (h : Boundary b i s)
    (hscope : scope ∈ s.scopes) (hresume : scope.resume ≠ none) :
    b.Opens scope ∧ scope.kind = .lambda := by
  have hopens := h.opens_of_mem hb scope hscope
  refine ⟨hopens, ?_⟩
  by_contra hkind
  obtain ⟨t, ht, -⟩ := id hopens
  have hentered := (List.cons.inj (ht.enterScope_of_opens hopens hkind).2).1
  exact hresume (congrArg Scope.resume hentered).symm

/-- A brace that is read with its head opens what the head says. -/
theorem opens_of_head (h : Boundary b i s) (hreads : s.ReadsHead b i) {kind : ScopeKind}
    (hkind : (b.head s.scope s.head i).kind = some kind) :
    ∃ scope, b.Opens scope ∧ scope.opener = i ∧ scope.kind = kind ∧
      scope.name = (b.head s.scope s.head i).name := by
  obtain ⟨scope, hscopes, hopener, hscope⟩ : ∃ scope, (s.openBrace b i).1.scopes =
      scope :: s.scopes ∧ scope.opener = i ∧ scope.kind = kind ∧
        scope.name = (b.head s.scope s.head i).name := by
    rw [hreads.openBrace_eq hkind]
    exact ⟨_, rfl, rfl, rfl, rfl⟩
  subst hopener
  exact ⟨scope, ⟨s, h, hreads.brace, hscopes⟩, rfl, hscope⟩

/-- A brace opens the definition of a class of a name exactly if it is read with its head and the
head starts one. -/
theorem defines_iff (h : Boundary b i s) {name : String} :
    (∃ scope, b.Opens scope ∧ scope.opener = i ∧ scope.Defines name) ↔
      s.ReadsHead b i ∧ s.HeadsClass b i name := by
  constructor
  · rintro ⟨scope, hopens, rfl, hclass, hname⟩
    rcases h.head_of_opens hopens with hlambda | ⟨hreads, hkind, hname'⟩
    · rw [hlambda] at hclass
      cases hclass
    · refine ⟨hreads, ScanState.class_head_iff.1 ⟨?_, hname'.trans hname⟩⟩
      rw [hkind]
      exact hclass
  · rintro ⟨hreads, hheads⟩
    obtain ⟨hclass, hname⟩ := ScanState.class_head_iff.2 hheads
    obtain ⟨kind, hkind, hclass⟩ := (Option.any_eq_true _ _).1 hclass
    obtain ⟨scope, hopens, hopener, hscope, hname'⟩ := h.opens_of_head hreads hkind
    exact ⟨scope, hopens, hopener, hscope ▸ hclass, hname'.trans hname⟩

end Boundary

end CxxFloor
