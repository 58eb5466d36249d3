/-
# The order of findings and notes

Both orders compare numbers first and break ties by ever finer ones, so both
are total and transitive, and sorting by them is determined up to entries that
come before each other.  Two files are compared by three facts about sorting:
lists that correspond stay in correspondence (`mergeSort_rel`), a list whose
second part comes after the first is sorted part by part
(`mergeSort_append`), and two sorted lists with the same keys have them in the
same order (`map_eq_of_perm`).  Two classifications of one file are compared by
a fourth: what is left of a list is sorted as it was in the whole
(`mergeSort_filter`).
-/
import CxxFloor.Classification
import Mathlib.Data.List.Forall2
import Mathlib.Data.List.Sort
import Mathlib.Data.String.Basic

namespace CxxFloor

namespace Catalog

variable {c : Catalog}

theorem findingLe_iff {a b : Match} :
    c.findingLe a b = true ↔ a.offset < b.offset ∨ a.offset = b.offset ∧
      (c.rank a.feature < c.rank b.feature ∨ c.rank a.feature = c.rank b.feature ∧
        (a.line < b.line ∨ a.line = b.line ∧ a.text ≤ b.text)) := by
  unfold findingLe
  by_cases hoffset : a.offset = b.offset
  · by_cases hrank : c.rank a.feature = c.rank b.feature
    · by_cases hline : a.line = b.line
      · simp [hoffset, hrank, hline]
      · simp [hoffset, hrank, hline]
    · simp [hoffset, hrank]
  · simp [hoffset]

theorem findingLe_trans (x y z : Match) (hxy : c.findingLe x y = true)
    (hyz : c.findingLe y z = true) : c.findingLe x z = true := by
  rw [findingLe_iff] at *
  rcases hxy with h | ⟨h, h | ⟨hr, h | ⟨hl, h⟩⟩⟩
  · left; omega
  · rcases hyz with h' | ⟨h', h' | ⟨hr', -⟩⟩
    · left; omega
    · exact .inr ⟨by omega, .inl (by omega)⟩
    · exact .inr ⟨by omega, .inl (by omega)⟩
  · rcases hyz with h' | ⟨h', h' | ⟨hr', h' | ⟨hl', -⟩⟩⟩
    · left; omega
    · exact .inr ⟨by omega, .inl (by omega)⟩
    · exact .inr ⟨by omega, .inr ⟨by omega, .inl (by omega)⟩⟩
    · exact .inr ⟨by omega, .inr ⟨by omega, .inl (by omega)⟩⟩
  · rcases hyz with h' | ⟨h', h' | ⟨hr', h' | ⟨hl', h'⟩⟩⟩
    · left; omega
    · exact .inr ⟨by omega, .inl (by omega)⟩
    · exact .inr ⟨by omega, .inr ⟨by omega, .inl (by omega)⟩⟩
    · exact .inr ⟨by omega, .inr ⟨by omega, .inr ⟨by omega, le_trans h h'⟩⟩⟩

theorem findingLe_total (x y : Match) : (c.findingLe x y || c.findingLe y x) = true := by
  rw [Bool.or_eq_true, findingLe_iff, findingLe_iff]
  rcases le_total x.text y.text with h | h
  · simp only [h, and_true]
    omega
  · simp only [h, and_true]
    omega

theorem noteLe_iff {a b : Note} :
    c.noteLe a b = true ↔ a.offset < b.offset ∨ a.offset = b.offset ∧
      c.rank a.feature ≤ c.rank b.feature := by
  unfold noteLe
  by_cases hoffset : a.offset = b.offset
  · simp [hoffset]
  · simp [hoffset]

theorem noteLe_trans (x y z : Note) (hxy : c.noteLe x y = true) (hyz : c.noteLe y z = true) :
    c.noteLe x z = true := by
  rw [noteLe_iff] at *
  omega

theorem noteLe_total (x y : Note) : (c.noteLe x y || c.noteLe y x) = true := by
  rw [Bool.or_eq_true, noteLe_iff, noteLe_iff]
  omega

theorem contains_iff_mem_ids {id : String} : c.contains id = true ↔ id ∈ c.ids := by
  simp [contains, find?, ids]

theorem find?_of_mem {d : Descriptor} (hd : d ∈ c.entries) : c.find? d.id = some d := by
  obtain ⟨e, he⟩ : ∃ e, c.find? d.id = some e := by
    refine Option.isSome_iff_exists.1 (List.find?_isSome.2 ⟨d, hd, ?_⟩)
    simp
  have hid : e.id = d.id := by simpa using List.find?_some he
  rw [he, List.inj_on_of_nodup_map c.nodup (List.mem_of_find?_eq_some he) hd hid]

theorem find?_eq_some_iff {id : String} {d : Descriptor} :
    c.find? id = some d ↔ d ∈ c.entries ∧ d.id = id := by
  constructor
  · intro h
    exact ⟨List.mem_of_find?_eq_some h, by simpa using List.find?_some h⟩
  · rintro ⟨hd, rfl⟩
    exact find?_of_mem hd

theorem rank_eq_idxOf (c : Catalog) (id : String) : c.rank id = c.ids.idxOf id := by
  unfold rank position? ids size
  induction c.entries with
  | nil => rfl
  | cons d ds ih =>
      rw [List.findIdx?_cons, List.map_cons, List.idxOf_cons]
      cases d.id == id with
      | true => rfl
      | false =>
          rw [if_neg (by decide), cond_false, ← ih, List.length_cons]
          cases ds.findIdx? (·.id == id) <;> rfl

theorem eq_of_rank_eq {id id' : String} (h : c.contains id = true)
    (hrank : c.rank id = c.rank id') : id = id' := by
  rw [rank_eq_idxOf, rank_eq_idxOf] at hrank
  exact (List.idxOf_inj (contains_iff_mem_ids.1 h)).1 hrank

theorem pairwise_rank (c : Catalog) : c.ids.Pairwise fun a b => c.rank a < c.rank b := by
  have hnodup : c.ids.Nodup := c.nodup
  rw [List.pairwise_iff_getElem]
  intro i j hi hj hlt
  rwa [rank_eq_idxOf, rank_eq_idxOf, hnodup.idxOf_getElem, hnodup.idxOf_getElem]

end Catalog

/-! ## Sorting -/

section Sorting

variable {α β : Type} {le : α → α → Bool}

theorem mergeSort_rel {le' : β → β → Bool} {R : α → β → Prop}
    (hle : ∀ {a a' b b'}, R a b → R a' b' → le a a' = le' b b') {l : List α} {l' : List β}
    (h : List.Forall₂ R l l') : List.Forall₂ R (l.mergeSort le) (l'.mergeSort le') := by
  obtain ⟨hlength, hzip⟩ := List.forall₂_iff_zip.1 h
  let le₂ (p q : α × β) : Bool := le p.1 q.1
  have hfst : ((l.zip l').mergeSort le₂).map (·.1) = l.mergeSort le := by
    rw [List.map_mergeSort (s := le) fun p _ q _ => rfl, List.map_fst_zip hlength.le]
  have hsnd : ((l.zip l').mergeSort le₂).map (·.2) = l'.mergeSort le' := by
    rw [List.map_mergeSort (s := le') fun p hp q hq => hle (hzip hp) (hzip hq),
      List.map_snd_zip hlength.ge]
  rw [← hfst, ← hsnd, List.forall₂_map_left_iff, List.forall₂_map_right_iff]
  exact List.forall₂_same.2 fun p hp => hzip (List.mem_mergeSort.1 hp)

/-- A list is cut in two where a property ends in one way only. -/
theorem append_unique {p : α → Bool} {l₁ l₂ m₁ m₂ : List α} (h : l₁ ++ l₂ = m₁ ++ m₂)
    (hl₁ : ∀ a ∈ l₁, p a = true) (hl₂ : ∀ a ∈ l₂, p a = false) (hm₁ : ∀ a ∈ m₁, p a = true)
    (hm₂ : ∀ a ∈ m₂, p a = false) : l₁ = m₁ ∧ l₂ = m₂ := by
  have hfilter : ∀ {k₁ k₂ : List α}, (∀ a ∈ k₁, p a = true) → (∀ a ∈ k₂, p a = false) →
      (k₁ ++ k₂).filter p = k₁ := by
    intro k₁ k₂ h₁ h₂
    rw [List.filter_append, List.filter_eq_self.2 h₁,
      List.filter_eq_nil_iff.2 fun a ha => by simp [h₂ a ha], List.append_nil]
  have hleft : l₁ = m₁ := by
    rw [← hfilter hl₁ hl₂, h, hfilter hm₁ hm₂]
  subst hleft
  exact ⟨rfl, List.append_cancel_left h⟩

/-- A new first entry is put before the entries that it may come before, and behind the others. -/
theorem mergeSort_cons (trans : ∀ x y z, le x y = true → le y z = true → le x z = true)
    (total : ∀ x y, (le x y || le y x) = true) (a : α) (l : List α) :
    ∃ l₁ l₂, (a :: l).mergeSort le = l₁ ++ a :: l₂ ∧ l.mergeSort le = l₁ ++ l₂ ∧
      (∀ b ∈ l₁, (!le a b) = true) ∧ ∀ b ∈ l₂, (!le a b) = false := by
  obtain ⟨l₁, l₂, hsorted, hrest, hbefore⟩ := List.mergeSort_cons trans total a l
  refine ⟨l₁, l₂, hsorted, hrest, fun b hb => by simpa using hbefore b hb, fun b hb => ?_⟩
  have hpairwise := List.pairwise_mergeSort trans total (a :: l)
  rw [hsorted] at hpairwise
  have := (List.pairwise_cons.1 (List.pairwise_append.1 hpairwise).2.1).1 b hb
  simp [this]

/-- Where a new first entry is put is told by the entries alone. -/
theorem mergeSort_cons_of_cut (trans : ∀ x y z, le x y = true → le y z = true → le x z = true)
    (total : ∀ x y, (le x y || le y x) = true) {a : α} {l m₁ m₂ : List α}
    (h : l.mergeSort le = m₁ ++ m₂) (h₁ : ∀ b ∈ m₁, (!le a b) = true)
    (h₂ : ∀ b ∈ m₂, (!le a b) = false) : (a :: l).mergeSort le = m₁ ++ a :: m₂ := by
  obtain ⟨l₁, l₂, hsorted, hrest, hbefore, hbehind⟩ := mergeSort_cons trans total a l
  obtain ⟨rfl, rfl⟩ := append_unique (hrest.symm.trans h) hbefore hbehind h₁ h₂
  exact hsorted

/-- Where all of a second list comes after the first, the lists are sorted one by one. -/
theorem mergeSort_append (trans : ∀ x y z, le x y = true → le y z = true → le x z = true)
    (total : ∀ x y, (le x y || le y x) = true) {l l' : List α}
    (h : ∀ a ∈ l, ∀ b ∈ l', le a b = true) :
    (l ++ l').mergeSort le = l.mergeSort le ++ l'.mergeSort le := by
  induction l with
  | nil => rw [List.mergeSort_nil]; rfl
  | cons a l ih =>
      obtain ⟨l₁, l₂, hsorted, hrest, hbefore, hbehind⟩ := mergeSort_cons trans total a l
      have hboth : (l ++ l').mergeSort le = l₁ ++ (l₂ ++ l'.mergeSort le) := by
        rw [ih fun x hx => h x (List.mem_cons_of_mem _ hx), hrest, List.append_assoc]
      have hend : ∀ b ∈ l₂ ++ l'.mergeSort le, (!le a b) = false := by
        intro b hb
        rcases List.mem_append.1 hb with hb | hb
        · exact hbehind b hb
        · simp [h a List.mem_cons_self b (List.mem_mergeSort.1 hb)]
      rw [List.cons_append, mergeSort_cons_of_cut trans total hboth hbefore hend, hsorted,
        List.append_assoc, List.cons_append]

/-- The same where the second list is moved behind the first without a change to its order. -/
theorem mergeSort_append_map (trans : ∀ x y z, le x y = true → le y z = true → le x z = true)
    (total : ∀ x y, (le x y || le y x) = true) {f : α → α}
    (hle : ∀ x y, le (f x) (f y) = le x y) {l l' : List α}
    (h : ∀ a ∈ l, ∀ b ∈ l', le a (f b) = true) :
    (l ++ l'.map f).mergeSort le = l.mergeSort le ++ (l'.mergeSort le).map f := by
  have hbefore : ∀ a ∈ l, ∀ b ∈ l'.map f, le a b = true := by
    intro a ha b hb
    obtain ⟨x, hx, rfl⟩ := List.mem_map.1 hb
    exact h a ha x hx
  rw [mergeSort_append trans total hbefore, List.map_mergeSort fun x _ y _ => (hle x y).symm]

theorem mergeSort_filter (trans : ∀ x y z, le x y = true → le y z = true → le x z = true)
    (total : ∀ x y, (le x y || le y x) = true) (p : α → Bool) (l : List α) :
    (l.filter p).mergeSort le = (l.mergeSort le).filter p := by
  induction l with
  | nil => simp
  | cons a l ih =>
      obtain ⟨l₁, l₂, hsorted, hrest, hbefore, hbehind⟩ := mergeSort_cons trans total a l
      have hleft : (l.filter p).mergeSort le = l₁.filter p ++ l₂.filter p := by
        rw [ih, hrest, List.filter_append]
      rw [hsorted, List.filter_append]
      cases hp : p a with
      | false =>
          rw [List.filter_cons_of_neg (by simp [hp]), List.filter_cons_of_neg (by simp [hp]), hleft]
      | true =>
          rw [List.filter_cons_of_pos hp, List.filter_cons_of_pos hp]
          exact mergeSort_cons_of_cut trans total hleft
            (fun b hb => hbefore b (List.mem_filter.1 hb).1)
            (fun b hb => hbehind b (List.mem_filter.1 hb).1)

/-- Two sorted lists have the same keys in the same order if they have the same keys at all and
the order decides between keys. -/
theorem map_eq_of_perm {γ : Type} {f : α → γ} {g : β → γ} {r : γ → γ → Prop} {l : List α}
    {l' : List β} (hperm : (l.map f).Perm (l'.map g))
    (hl : l.Pairwise fun a b => r (f a) (f b)) (hl' : l'.Pairwise fun a b => r (g a) (g b))
    (hr : ∀ a ∈ l, ∀ b ∈ l', r (f a) (g b) → r (g b) (f a) → f a = g b) :
    l.map f = l'.map g := by
  refine List.Perm.eq_of_pairwise ?_ (List.pairwise_map.2 hl) (List.pairwise_map.2 hl') hperm
  intro x y hx hy
  obtain ⟨a, ha, rfl⟩ := List.mem_map.1 hx
  obtain ⟨b, hb, rfl⟩ := List.mem_map.1 hy
  exact hr a ha b hb

end Sorting

end CxxFloor
