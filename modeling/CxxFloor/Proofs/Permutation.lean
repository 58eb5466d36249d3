/-
# Classifying in any order

A classification is made from a list of matches, and the list is sorted first.
The order of findings looks at offset, feature, line and text (`Match.key`) and
leaves matches that agree in all of these as they came.  So two orders of the
same matches always agree in the standard, in the tally, and in what the
findings show at every place; they agree altogether, for every order, exactly
when no two of the matches differ in column or file alone (`Separated`).

What is found in one text is always separated: one offset has one column, and
the file is the text's (`separated_found`).
-/
import CxxFloor.Proofs.Concatenation
import CxxFloor.Proofs.Quotation

namespace CxxFloor

/-- The match without its column and its file, at which the order of findings does not look. -/
def Match.key (m : Match) : Match := { m with column := 0, file := "" }

/-- No two of the matches differ in column or file alone. -/
def Separated (ms : List Match) : Prop := ∀ a ∈ ms, ∀ b ∈ ms, a.key = b.key → a = b

instance (ms : List Match) : Decidable (Separated ms) :=
  inferInstanceAs (Decidable (∀ a ∈ ms, ∀ b ∈ ms, a.key = b.key → a = b))

/-! ## Keys and the order of findings -/

theorem Match.key_eq_iff {a b : Match} :
    a.key = b.key ↔
      a.offset = b.offset ∧ a.feature = b.feature ∧ a.line = b.line ∧ a.text = b.text := by
  obtain ⟨⟨line, column, offset, text⟩, feature, file⟩ := a
  obtain ⟨⟨line', column', offset', text'⟩, feature', file'⟩ := b
  constructor
  · intro h
    cases h
    exact ⟨rfl, rfl, rfl, rfl⟩
  · rintro ⟨hoffset, hfeature, hline, htext⟩
    cases hoffset
    cases hfeature
    cases hline
    cases htext
    rfl

namespace Catalog

variable {c : Catalog} {a b : Match}

theorem findingLe_key (c : Catalog) (a b : Match) :
    c.findingLe a.key b.key = c.findingLe a b := rfl

theorem findingLe_of_key_eq (h : a.key = b.key) : c.findingLe a b = true := by
  have hself : c.findingLe a a = true := by simpa using findingLe_total (c := c) a a
  rw [← findingLe_key, ← h, findingLe_key]
  exact hself

theorem key_eq_of_findingLe (ha : c.contains a.feature = true) (hab : c.findingLe a b = true)
    (hba : c.findingLe b a = true) : a.key = b.key := by
  rw [findingLe_iff] at hab hba
  have hoffset : a.offset = b.offset := by omega
  have hrank : c.rank a.feature = c.rank b.feature := by omega
  have hline : a.line = b.line := by omega
  have htext : a.text = b.text := by
    simp only [hoffset, hrank, hline, lt_irrefl, true_and, false_or] at hab hba
    exact le_antisymm hab hba
  exact Match.key_eq_iff.2 ⟨hoffset, eq_of_rank_eq ha hrank, hline, htext⟩

theorem map_key_mergeSort {ms ms' : List Match} (hperm : ms'.Perm ms)
    (hknown : ∀ m ∈ ms, c.contains m.feature = true) :
    (ms'.mergeSort c.findingLe).map Match.key = (ms.mergeSort c.findingLe).map Match.key := by
  have hsame : (ms'.mergeSort c.findingLe).Perm (ms.mergeSort c.findingLe) :=
    ((List.mergeSort_perm ms' _).trans hperm).trans (List.mergeSort_perm ms _).symm
  refine map_eq_of_perm (r := fun k l => c.findingLe k l = true) (hsame.map Match.key)
    (List.pairwise_mergeSort findingLe_trans findingLe_total ms')
    (List.pairwise_mergeSort findingLe_trans findingLe_total ms) ?_
  intro a ha b _ hab hba
  have ha : c.contains a.feature = true := by
    apply hknown
    exact hperm.mem_iff.1 (List.mem_mergeSort.1 ha)
  exact key_eq_of_findingLe ha hab hba

theorem mergeSort_of_key {ms : List Match} {k : Match} (h : ∀ m ∈ ms, m.key = k) :
    ms.mergeSort c.findingLe = ms := by
  apply List.mergeSort_of_pairwise
  apply List.pairwise_of_forall_mem_list
  intro a ha b hb
  exact findingLe_of_key_eq ((h a ha).trans (h b hb).symm)

theorem mergeSort_ne_of_key {ms : List Match} (hkey : a.key = b.key) (hne : a ≠ b) :
    (a :: b :: ms).mergeSort c.findingLe ≠ (b :: a :: ms).mergeSort c.findingLe := by
  intro h
  -- the matches with this key are sorted among themselves, and are left as they are
  have hfilter : ∀ l : List Match, (l.mergeSort c.findingLe).filter (fun m => m.key = a.key)
      = l.filter fun m => m.key = a.key := by
    intro l
    rw [← mergeSort_filter findingLe_trans findingLe_total]
    apply mergeSort_of_key (k := a.key)
    intro m hm
    simpa using (List.mem_filter.1 hm).2
  have hsame := congrArg (List.filter fun m : Match => m.key = a.key) h
  rw [hfilter, hfilter] at hsame
  simp only [hkey, decide_true, List.filter_cons_of_pos, List.cons.injEq] at hsame
  exact hne hsame.1

end Catalog

/-! ## Classifications -/

/-- Two orders of the same matches amount to the same, but for the places of findings with one
key. -/
theorem Classification.of_perm {c : Catalog} {ms ms' : List Match} (hperm : ms'.Perm ms)
    (hknown : ∀ m ∈ ms, c.contains m.feature = true) (floor : Int) :
    (of ms' c floor).required = (of ms c floor).required ∧
      (of ms' c floor).byFeature = (of ms c floor).byFeature ∧
      (of ms' c floor).findings.Perm (of ms c floor).findings ∧
      (of ms' c floor).findings.map Match.key = (of ms c floor).findings.map Match.key := by
  have hkeys := Catalog.map_key_mergeSort hperm hknown
  have hids : (ms'.mergeSort c.findingLe).map (·.feature) =
      (ms.mergeSort c.findingLe).map (·.feature) := by
    have hfeature := congrArg (List.map fun k : Match => k.feature) hkeys
    rwa [List.map_map, List.map_map] at hfeature
  refine ⟨?_, ?_, ?_, hkeys⟩
  · show (c.newest? (List.map _ _)).getD floor = (c.newest? (List.map _ _)).getD floor
    rw [hids]
  · show c.tally (List.map _ _) = c.tally (List.map _ _)
    rw [hids]
  · exact ((List.mergeSort_perm ms' _).trans hperm).trans (List.mergeSort_perm ms _).symm

theorem Classification.of_perm_separated {c : Catalog} {ms ms' : List Match}
    (hperm : ms'.Perm ms) (hknown : ∀ m ∈ ms, c.contains m.feature = true) (h : Separated ms)
    (floor : Int) : of ms' c floor = of ms c floor := by
  have hsame : ms'.mergeSort c.findingLe = ms.mergeSort c.findingLe := by
    refine List.Perm.eq_of_pairwise ?_
      (List.pairwise_mergeSort Catalog.findingLe_trans Catalog.findingLe_total ms')
      (List.pairwise_mergeSort Catalog.findingLe_trans Catalog.findingLe_total ms)
      (of_perm hperm hknown floor).2.2.1
    intro a b ha hb hab hba
    have ha : a ∈ ms := hperm.mem_iff.1 (List.mem_mergeSort.1 ha)
    have hb : b ∈ ms := List.mem_mergeSort.1 hb
    exact h a ha b hb (Catalog.key_eq_of_findingLe (hknown a ha) hab hba)
  simp only [of, hsame]

theorem Classification.separated_of_perm {c : Catalog} {ms : List Match} (floor : Int)
    (h : ∀ ms', ms'.Perm ms → of ms' c floor = of ms c floor) : Separated ms := by
  intro a ha b hb hkey
  by_contra hne
  obtain ⟨rest, hrest⟩ : ∃ rest, (a :: b :: rest).Perm ms := by
    have hb' : b ∈ ms.erase a := (List.mem_erase_of_ne (Ne.symm hne)).2 hb
    refine ⟨(ms.erase a).erase b, ?_⟩
    exact ((List.perm_cons_erase hb').symm.cons a).trans (List.perm_cons_erase ha).symm
  have hswapped : (b :: a :: rest).Perm ms := (List.Perm.swap a b rest).trans hrest
  have hfindings := congrArg Classification.findings ((h _ hrest).trans (h _ hswapped).symm)
  exact Catalog.mergeSort_ne_of_key hkey hne hfindings

/-- The order of matches is forgotten in the standard, in the tally, and in all of the findings
but their columns and files; and it is forgotten altogether, whatever the order, exactly when no
two of the matches differ in column or file alone. -/
theorem classification_of_any_order {catalog : Catalog} {matched : List Match}
    (known : ∀ m ∈ matched, catalog.contains m.feature = true) (floor : Int) :
    (∀ matched', matched'.Perm matched → ∃ r r',
      classify matched catalog floor = .ok r ∧ classify matched' catalog floor = .ok r' ∧
      r'.required = r.required ∧ r'.byFeature = r.byFeature ∧ r'.findings.Perm r.findings ∧
      r'.findings.map Match.key = r.findings.map Match.key) ∧
    ((∀ matched', matched'.Perm matched →
      classify matched' catalog floor = classify matched catalog floor) ↔ Separated matched) := by
  have hclassify : ∀ matched', matched'.Perm matched →
      classify matched' catalog floor = .ok (.of matched' catalog floor) := by
    intro matched' hperm
    apply classify_of_contains
    intro m hm
    exact known m (hperm.mem_iff.1 hm)
  refine ⟨?_, ?_, ?_⟩
  · intro matched' hperm
    exact ⟨_, _, hclassify matched (.refl _), hclassify matched' hperm,
      Classification.of_perm hperm known floor⟩
  · intro h
    apply Classification.separated_of_perm (c := catalog) floor
    intro matched' hperm
    have hsame := h matched' hperm
    rw [hclassify matched' hperm, hclassify matched (.refl _)] at hsame
    exact Except.ok.inj hsame
  · intro hseparated matched' hperm
    rw [hclassify matched' hperm, hclassify matched (.refl _),
      Classification.of_perm_separated hperm known hseparated]

/-- Two literals on one line, in either order. -/
theorem classification_of_any_order_literals :
    (∀ m ∈ ([⟨⟨1, 5, 4, "1uz"⟩, "size-literal-suffix", "a"⟩,
        ⟨⟨1, 9, 8, "1uz"⟩, "size-literal-suffix", "a"⟩] : List Match),
      standardCatalog.contains m.feature = true) ∧
    classify [⟨⟨1, 9, 8, "1uz"⟩, "size-literal-suffix", "a"⟩,
        ⟨⟨1, 5, 4, "1uz"⟩, "size-literal-suffix", "a"⟩] standardCatalog 20 =
      classify [⟨⟨1, 5, 4, "1uz"⟩, "size-literal-suffix", "a"⟩,
        ⟨⟨1, 9, 8, "1uz"⟩, "size-literal-suffix", "a"⟩] standardCatalog 20 := by
  have hknown : ∀ m ∈ ([⟨⟨1, 5, 4, "1uz"⟩, "size-literal-suffix", "a"⟩,
      ⟨⟨1, 9, 8, "1uz"⟩, "size-literal-suffix", "a"⟩] : List Match),
      standardCatalog.contains m.feature = true := by
    decide +kernel
  exact ⟨hknown, (classification_of_any_order hknown 20).2.2 (by decide) _ (.swap _ _ [])⟩

/-- The matches of two files that read alike are classified in the order in which they come. -/
theorem files_keep_their_order :
    (∀ m ∈ ([⟨⟨1, 5, 4, "1uz"⟩, "size-literal-suffix", "a"⟩,
        ⟨⟨1, 5, 4, "1uz"⟩, "size-literal-suffix", "b"⟩] : List Match),
      standardCatalog.contains m.feature = true) ∧
    ([⟨⟨1, 5, 4, "1uz"⟩, "size-literal-suffix", "b"⟩,
        ⟨⟨1, 5, 4, "1uz"⟩, "size-literal-suffix", "a"⟩] : List Match).Perm
      [⟨⟨1, 5, 4, "1uz"⟩, "size-literal-suffix", "a"⟩,
        ⟨⟨1, 5, 4, "1uz"⟩, "size-literal-suffix", "b"⟩] ∧
    classify [⟨⟨1, 5, 4, "1uz"⟩, "size-literal-suffix", "b"⟩,
        ⟨⟨1, 5, 4, "1uz"⟩, "size-literal-suffix", "a"⟩] standardCatalog 20 ≠
      classify [⟨⟨1, 5, 4, "1uz"⟩, "size-literal-suffix", "a"⟩,
        ⟨⟨1, 5, 4, "1uz"⟩, "size-literal-suffix", "b"⟩] standardCatalog 20 := by
  have hknown : ∀ m ∈ ([⟨⟨1, 5, 4, "1uz"⟩, "size-literal-suffix", "a"⟩,
      ⟨⟨1, 5, 4, "1uz"⟩, "size-literal-suffix", "b"⟩] : List Match),
      standardCatalog.contains m.feature = true := by
    decide +kernel
  refine ⟨hknown, .swap _ _ [], ?_⟩
  rw [classify_of_contains hknown, classify_of_contains (by decide +kernel)]
  intro h
  have hfindings := congrArg Classification.findings (Except.ok.inj h)
  exact Catalog.mergeSort_ne_of_key (by decide) (by decide) hfindings

/-! ## What is found in a text -/

theorem separated_found {d : Dispatcher} (hd : ∀ e ∈ d.matchers, e ∈ standardExaminers)
    (name text : String) : Separated (d.run (scan name text).fragments).found := by
  have hplace : ∀ m ∈ (d.run (scan name text).fragments).found,
      m.file = name ∧ m.toSpot.StandsIn text.toList := by
    intro m hm
    obtain ⟨f, hf, hfound⟩ := Dispatcher.mem_found_run.1 hm
    obtain ⟨g, hg, hfile⟩ := Dispatcher.file_of_mem_run hd hm
    exact ⟨hfile.trans (file_of_mem_fragments hg),
      ((Dispatcher.shownAt_of_mem_found hd hfound).quotes hf).1⟩
  intro a ha b hb hkey
  obtain ⟨hoffset, hfeature, hline, htext⟩ := Match.key_eq_iff.1 hkey
  obtain ⟨hfile, n, -, hn, -, hcolumn⟩ := hplace a ha
  obtain ⟨hfile', n', -, hn', -, hcolumn'⟩ := hplace b hb
  obtain rfl : n = n' := by omega
  have hcolumns : a.column = b.column := hcolumn.trans hcolumn'.symm
  have hfiles : a.file = b.file := hfile.trans hfile'.symm
  obtain ⟨⟨line, column, offset, shown⟩, feature, file⟩ := a
  obtain ⟨⟨line', column', offset', shown'⟩, feature', file'⟩ := b
  cases hoffset
  cases hfeature
  cases hline
  cases htext
  cases hcolumns
  cases hfiles
  rfl

/-- So the order in which the fragments of a text are examined does not matter. -/
theorem classify_found_of_perm {catalog : Catalog} {disabled : List String} {d : Dispatcher}
    (hmake : Dispatcher.make catalog standardMatchers disabled = .ok d) (name text : String)
    {matched' : List Match} (hperm : matched'.Perm (d.run (scan name text).fragments).found)
    (floor : Int) :
    classify matched' catalog floor =
      classify (d.run (scan name text).fragments).found catalog floor := by
  have hknown : ∀ m ∈ (d.run (scan name text).fragments).found,
      catalog.contains m.feature = true := by
    intro m hm
    exact Dispatcher.contains_of_mem_found hmake hm
  have hseparated := separated_found (Dispatcher.of_make hmake) name text
  rw [classify_of_contains hknown, classify_of_contains,
    Classification.of_perm_separated hperm hknown hseparated]
  intro m hm
  exact hknown m (hperm.mem_iff.1 hm)

end CxxFloor
