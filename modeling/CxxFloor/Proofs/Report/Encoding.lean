/-
# A document is written without loss

The report for a program is ASCII and ends with one line end, and reading it
gives the document of the batch: its keys in their order, its numbers and its
texts.  So two batches with one report have one document.

How many digits an integer may have is up to the environment.  Without a limit
every batch is written; with one, exactly the batches whose integers keep to it,
and no part of any other (`ReportFormat.write_eq_ok_iff`).
-/
import CxxFloor.Proofs.Json.Lossless
import CxxFloor.Report.Format

namespace CxxFloor

namespace Json

/-! ## ASCII -/

def IsAscii (cs : List Char) : Prop := ∀ c ∈ cs, c.toNat < 0x80

@[simp] theorem isAscii_append (cs ds : List Char) :
    IsAscii (cs ++ ds) ↔ IsAscii cs ∧ IsAscii ds :=
  List.forall_mem_append

@[simp] theorem isAscii_cons (c : Char) (cs : List Char) :
    IsAscii (c :: cs) ↔ c.toNat < 0x80 ∧ IsAscii cs :=
  List.forall_mem_cons

@[simp] theorem isAscii_nil : IsAscii [] := List.forall_mem_nil _

@[simp] theorem isAscii_hex (width n : Nat) : IsAscii (Text.hex width n) := by
  have hdigit : ∀ d < 16, (Text.hexDigit d).toNat < 0x80 := by decide
  intro c hc
  obtain ⟨d, hd, rfl⟩ := Text.exists_of_mem_hex hc
  exact hdigit d hd

theorem isAscii_escape (c : Char) : IsAscii (escape c) := by
  unfold escape
  split
  case h_1 e he =>
    unfold shortEscape? at he
    split at he <;> first
      | obtain rfl := Option.some.inj he
        simp
      | simp at he
  case h_2 =>
    split
    case isTrue h =>
      have hprintable : c.toNat < 0x7F := by simp_all
      exact (isAscii_cons _ _).2 ⟨by omega, isAscii_nil⟩
    case isFalse =>
      unfold escapeCode
      split <;> simp [escapeUnit]

@[simp] theorem isAscii_quote (s : String) : IsAscii (quote s) := by
  have hescape : IsAscii (s.toList.flatMap escape) := by
    intro c hc
    obtain ⟨d, -, hd⟩ := List.mem_flatMap.1 hc
    exact isAscii_escape d c hd
  simp [quote, hescape]

@[simp] theorem isAscii_newline (level : Nat) : IsAscii (newline level) := by
  refine (isAscii_cons _ _).2 ⟨by decide, ?_⟩
  intro c hc
  rw [List.eq_of_mem_replicate hc]
  decide

@[simp] theorem isAscii_toString (n : Int) : IsAscii (toString n).toList := by
  intro c hc
  rcases Text.of_mem_toString hc with rfl | hdigit
  · decide
  · exact Nat.lt_of_le_of_lt (Char.isDigit_iff_toNat.1 hdigit).2 (by decide)

mutual

@[simp] theorem isAscii_layout (level : Nat) (j : Json) : IsAscii (layout level j) := by
  match j with
  | .number n => exact layout.eq_def .. ▸ isAscii_toString n
  | .text s => simp [layout]
  | .array [] => simp [layout]
  | .array (item :: items) =>
    simp [layout, isAscii_layout (level + 1) item, isAscii_layoutItems (level + 1) items]
  | .object [] => simp [layout]
  | .object ((key, value) :: fields) =>
    simp [layout, isAscii_layout (level + 1) value, isAscii_layoutFields (level + 1) fields]

@[simp] theorem isAscii_layoutItems (level : Nat) (items : List Json) :
    IsAscii (layoutItems level items) := by
  match items with
  | [] => simp [layoutItems]
  | item :: items =>
    simp [layoutItems, isAscii_layout level item, isAscii_layoutItems level items]

@[simp] theorem isAscii_layoutFields (level : Nat) (fields : List (String × Json)) :
    IsAscii (layoutFields level fields) := by
  match fields with
  | [] => simp [layoutFields]
  | (key, value) :: fields =>
    simp [layoutFields, isAscii_layout level value, isAscii_layoutFields level fields]

end

theorem getLast?_layout (level : Nat) (j : Json) : (layout level j).getLast? ≠ some '\n' := by
  have hlast : ∀ (cs : List Char) {c : Char}, c ≠ '\n' → (cs ++ [c]).getLast? ≠ some '\n' := by
    intro cs c hc
    rwa [List.getLast?_concat, Ne, Option.some.injEq]
  cases j with
  | number n =>
      intro h
      rw [layout] at h
      exact absurd (Text.of_mem_toString (List.mem_of_getLast? h)) (by decide)
  | text s => rw [layout]; exact hlast _ (by decide)
  | array items =>
      cases items with
      | nil => simp [layout]
      | cons item items => rw [layout]; exact hlast _ (by decide)
  | object fields =>
      cases fields with
      | nil => simp [layout]
      | cons field fields => rw [layout]; exact hlast _ (by decide)

end Json

/-! ## Documents -/

theorem Json.fault?_eq_none_iff {limit : Option Nat} {j : Json} :
    j.fault? limit = none ↔
      ∀ k ∈ limit, ∀ n ∈ j.numbers, (Nat.toDigits 10 n.natAbs).length ≤ k := by
  cases limit with
  | none => simp [fault?]
  | some k => simp [fault?, Text.fitsDigits]

namespace ReportFormat

variable {limit : Option Nat} {catalog catalog' : Catalog} {color color' : Bool} {b b' : Batch}
  {text : String}

/-- A report is written if all its integers keep to the limit, and in full. -/
theorem write_eq_ok_iff {f : ReportFormat} :
    f.write limit catalog color b = .ok text ↔
      (∀ k ∈ limit, ∀ n ∈ (Document.ofBatch catalog.orStandard b).numbers,
          (Nat.toDigits 10 n.natAbs).length ≤ k) ∧
        text = f.render catalog color b := by
  rw [← Json.fault?_eq_none_iff]
  unfold write
  cases (Document.ofBatch catalog.orStandard b).fault? limit with
  | none => simp [eq_comm]
  | some fault => simp

theorem of_write_eq_error {f : ReportFormat} {e : Refusal}
    (h : f.write limit catalog color b = .error e) :
    ∃ k ∈ limit, e = .integer (.unwritable k) := by
  unfold write at h
  cases limit with
  | none => cases h
  | some k =>
      unfold Json.fault? at h
      refine ⟨k, rfl, ?_⟩
      split at h
      next => cases h
      next fault hfault =>
        dsimp only at hfault
        split at hfault
        · cases hfault
        · rw [← Except.error.inj h, Option.some.inj hfault]

theorem toList_render_machine :
    (machine.render catalog color b).toList =
      Json.layout 0 (Document.ofBatch catalog.orStandard b) ++ ['\n'] := by
  show (String.ofList _ ++ String.ofList ['\n']).toList = _
  rw [← String.ofList_append, String.toList_ofList]

theorem read?_render_machine (catalog : Catalog) (color : Bool) (b : Batch) :
    Json.read? (machine.render catalog color b) =
      some (Document.ofBatch catalog.orStandard b) := by
  rw [← String.ofList_toList (s := machine.render catalog color b), toList_render_machine]
  exact Json.read?_layout _ rfl

end ReportFormat

end CxxFloor
