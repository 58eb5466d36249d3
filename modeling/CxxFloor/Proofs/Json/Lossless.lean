/-
# What is written as JSON is read as it was

A document is read back from its layout, whatever follows it: the character
that an escape stands for, the number that a row of digits denotes, and from
these, by induction on the document, the document.  Only a number has no end
of its own.  The character behind it must be no digit, and in a layout it
never is: there stands a comma or a line end.
-/
import CxxFloor.Proofs.Json.Reader
import CxxFloor.Proofs.Text.Numeral
import Mathlib.Data.List.TakeWhile

namespace CxxFloor

namespace Json

open Text (toDigits_of_head? toList_ofNat toList_negSucc exists_head_toDigits
  exists_head_toString)

/-! ## Characters -/

theorem hexValue?_hexDigit {d : Nat} (h : d < 16) : hexValue? (Text.hexDigit d) = some d := by
  revert d
  decide

theorem unit?_hex {n : Nat} (h : n < 0x10000) (rest : List Char) :
    unit? (Text.hex 4 n ++ rest) = some (n, rest) := by
  simp [Text.hex, unit?, hexValue?_hexDigit (Nat.mod_lt _ _)]
  omega

theorem coded?_hex {n : Nat} (h : n < 0xD800 ∨ 0xE000 ≤ n) (hn : n < 0x10000)
    (rest : List Char) : coded? (Text.hex 4 n ++ rest) = some (Char.ofNat n, rest) := by
  simp [coded?, unit?_hex hn, h]

theorem coded?_surrogates {a b : Nat} (ha : a < 0x400) (hb : b < 0x400) (rest : List Char) :
    coded? (Text.hex 4 (0xD800 + a) ++ '\\' :: 'u' :: (Text.hex 4 (0xDC00 + b) ++ rest)) =
      some (Char.ofNat (0x10000 + a * 0x400 + b), rest) := by
  have hsurrogate : ¬(0xD800 + a < 0xD800 ∨ 0xE000 ≤ 0xD800 + a) := by omega
  have hpair : 0xD800 + a < 0xDC00 ∧ 0xDC00 ≤ 0xDC00 + b ∧ 0xDC00 + b < 0xE000 := by omega
  have hunit : unit? (Text.hex 4 (0xDC00 + b) ++ rest) = some (0xDC00 + b, rest) :=
    unit?_hex (by omega) rest
  rw [coded?, unit?_hex (by omega)]
  simp only [Option.bind_eq_bind, Option.bind_some, if_neg hsurrogate, hunit, if_pos hpair,
    Nat.add_sub_cancel_left]
  rfl

theorem toNat_not_surrogate (c : Char) :
    c.toNat < 0xD800 ∨ 0xE000 ≤ c.toNat ∧ c.toNat < 0x110000 := by
  rcases c.valid with h | ⟨hlow, hhigh⟩
  · exact .inl h
  · exact .inr ⟨hlow, hhigh⟩

theorem character?_escapeCode (c : Char) (rest : List Char) :
    character? (escapeCode c.toNat ++ rest) = some (c, rest) := by
  have hc := toNat_not_surrogate c
  unfold escapeCode
  split
  case isTrue h =>
    have hcoded := coded?_hex (hc.imp_right And.left) h rest
    rwa [Char.ofNat_toNat] at hcoded
  case isFalse h =>
    have hcoded := coded?_surrogates (a := (c.toNat - 0x10000) / 0x400)
      (b := (c.toNat - 0x10000) % 0x400) (by omega) (by omega) rest
    -- The quotient and the remainder make up the number again.
    have hjoin : 0x10000 + (c.toNat - 0x10000) / 0x400 * 0x400 + (c.toNat - 0x10000) % 0x400 =
        c.toNat := by omega
    rw [hjoin, Char.ofNat_toNat] at hcoded
    rw [List.append_assoc]
    exact hcoded

theorem character?_backslash {c e : Char} (h : lettered? e = some c) (rest : List Char) :
    character? ('\\' :: e :: rest) = some (c, rest) := by
  have hu : e ≠ 'u' := by
    rintro rfl
    simp [lettered?] at h
  rw [character?, h]
  · rfl
  · simpa using hu

theorem lettered?_of_shortEscape? {c e : Char} (h : shortEscape? c = some e) :
    lettered? e = some c := by
  unfold shortEscape? at h
  split at h <;> first
    | obtain rfl := Option.some.inj h
      rfl
    | simp at h

theorem ne_of_shortEscape?_eq_none {c : Char} (h : shortEscape? c = none) :
    c ≠ '"' ∧ c ≠ '\\' := by
  constructor <;> rintro rfl <;> simp [shortEscape?] at h

theorem character?_escape (c : Char) (rest : List Char) :
    character? (escape c ++ rest) = some (c, rest) := by
  unfold escape
  split
  case h_1 e he =>
    exact character?_backslash (lettered?_of_shortEscape? he) rest
  case h_2 he =>
    obtain ⟨hquote, hbackslash⟩ := ne_of_shortEscape?_eq_none he
    split
    case isTrue h =>
      have hprintable : 0x20 ≤ c.toNat := by simp_all
      simp [character?, hquote, hbackslash, hprintable]
    case isFalse => exact character?_escapeCode c rest

theorem head?_escape (c : Char) : ∃ d cs, escape c = d :: cs ∧ d ≠ '"' := by
  unfold escape
  split
  case h_1 => exact ⟨_, _, rfl, by decide⟩
  case h_2 he =>
    split
    case isTrue => exact ⟨_, _, rfl, (ne_of_shortEscape?_eq_none he).1⟩
    case isFalse =>
      unfold escapeCode
      split <;> exact ⟨_, _, rfl, by decide⟩

/-! ## Text -/

theorem characters?_cons {d : Char} (h : d ≠ '"') (steps : Nat) (cs : List Char) :
    characters? (steps + 1) (d :: cs) = (character? (d :: cs)).bind fun (c, rest) =>
      (characters? steps rest).map fun (s, rest) => (c :: s, rest) := by
  rw [characters?]
  · rfl
  · simpa using h

theorem characters?_escape {s : List Char} {steps : Nat} (h : s.length ≤ steps)
    (rest : List Char) : characters? steps (s.flatMap escape ++ '"' :: rest) = some (s, rest) := by
  induction s generalizing steps with
  | nil => cases steps <;> rfl
  | cons c s ih =>
      obtain ⟨steps, rfl⟩ := Nat.exists_eq_add_one.2 (Nat.zero_lt_of_lt h)
      obtain ⟨d, cs, hd, hquote⟩ := head?_escape c
      have hc := character?_escape c (s.flatMap escape ++ '"' :: rest)
      rw [hd, List.cons_append] at hc
      rw [List.flatMap_cons, List.append_assoc, hd, List.cons_append, characters?_cons hquote, hc,
        Option.bind_some]
      exact congrArg (Option.map _) (ih (Nat.le_of_succ_le_succ h))

theorem length_le_flatMap_escape (s : List Char) : s.length ≤ (s.flatMap escape).length := by
  induction s with
  | nil => exact Nat.zero_le _
  | cons c s ih =>
      obtain ⟨d, cs, hd, -⟩ := head?_escape c
      rw [List.flatMap_cons, List.length_append, hd, List.length_cons, List.length_cons]
      omega

theorem quoted?_escape (s : String) (rest : List Char) :
    quoted? (s.toList.flatMap escape ++ '"' :: rest) = some (s, rest) := by
  have hsteps : s.toList.length ≤ (s.toList.flatMap escape ++ '"' :: rest).length := by
    have hlength := length_le_flatMap_escape s.toList
    rw [List.length_append]
    omega
  rw [quoted?, characters?_escape hsteps]
  simp

/-! ## Numbers -/

/-- A text that goes on with no digit, so that a number can end in front of it. -/
def EndsNumber (rest : List Char) : Prop := ∀ c ∈ rest.head?, c.isDigit = false

theorem natural?_toDigits (n : Nat) {rest : List Char} (h : EndsNumber rest) :
    natural? (Nat.toDigits 10 n ++ rest) = some (n, rest) := by
  have hdigits : ∀ c ∈ Nat.toDigits 10 n, c.isDigit = true := by
    intro c hc
    exact Nat.isDigit_of_mem_toDigits (by decide) (by decide) hc
  have hrest : rest.takeWhile Char.isDigit = [] ∧ rest.dropWhile Char.isDigit = rest := by
    cases rest with
    | nil => exact ⟨rfl, rfl⟩
    | cons c rest => simp [h c rfl]
  have hplain : ¬(Nat.toDigits 10 n = [] ∨
      (Nat.toDigits 10 n).head? = some '0' ∧ Nat.toDigits 10 n ≠ ['0']) := by
    rintro (hnil | ⟨hzero, hmore⟩)
    · exact Nat.toDigits_ne_nil hnil
    · exact hmore (toDigits_of_head? hzero)
  simp only [natural?, List.takeWhile_append_of_pos hdigits,
    List.dropWhile_append_of_pos hdigits, hrest, List.append_nil, if_neg hplain,
    Nat.ofDigitChars_ten_toDigits]

theorem ne_of_startsNumber {c : Char} (h : c = '-' ∨ c.isDigit = true) :
    isBlank c = false ∧ c ≠ '"' ∧ c ≠ '[' ∧ c ≠ ']' ∧ c ≠ '\x7b' := by
  have hne : ∀ d : Char, ¬(d = '-' ∨ d.isDigit = true) → c ≠ d := by
    rintro d hd rfl
    exact hd h
  refine ⟨?_, hne _ (by decide), hne _ (by decide), hne _ (by decide), hne _ (by decide)⟩
  simp [isBlank, hne ' ' (by decide), hne '\t' (by decide), hne '\n' (by decide),
    hne '\r' (by decide)]

theorem integer?_toString (n : Int) {rest : List Char} (h : EndsNumber rest) :
    integer? ((toString n).toList ++ rest) = some (n, rest) := by
  cases n with
  | ofNat n =>
      obtain ⟨c, cs, hc, hdigit⟩ := exists_head_toDigits n
      have hread := natural?_toDigits n h
      have hsign : c ≠ '-' := by
        rintro rfl
        exact absurd hdigit (by decide)
      rw [hc, List.cons_append] at hread
      rw [toList_ofNat, hc, List.cons_append, integer?, hread]
      · rfl
      · simpa using hsign
  | negSucc n =>
      rw [toList_negSucc, List.cons_append, integer?, natural?_toDigits _ h]
      rfl

/-! ## Values -/

theorem skip_cons {c : Char} (h : isBlank c = false) (cs : List Char) :
    skip (c :: cs) = c :: cs := by
  simp [skip, h]

theorem skip_newline (level : Nat) (cs : List Char) :
    skip (newline level ++ cs) = skip cs := by
  have hblank : ∀ c ∈ newline level, isBlank c = true := by
    intro c hc
    rcases List.mem_cons.1 hc with rfl | hc
    · rfl
    · rw [List.eq_of_mem_replicate hc]
      rfl
  exact List.dropWhile_append_of_pos hblank

theorem value?_of_skip {cs cs' : List Char} (h : skip cs = skip cs') (steps : Nat) :
    value? steps cs = value? steps cs' := by
  cases steps with
  | zero => simp only [value?]
  | succ steps => simp only [value?, h]

theorem member?_of_skip {cs cs' : List Char} (h : skip cs = skip cs') (steps : Nat) :
    member? steps cs = member? steps cs' := by
  cases steps with
  | zero => simp only [member?]
  | succ steps => simp only [member?, h]

theorem value?_toString (steps : Nat) (n : Int) {rest : List Char} (h : EndsNumber rest) :
    value? (steps + 1) ((toString n).toList ++ rest) = some (.number n, rest) := by
  obtain ⟨c, cs, hc, hstart⟩ := exists_head_toString n
  obtain ⟨hblank, hquote, hbracket, -, hbrace⟩ := ne_of_startsNumber hstart
  have hread := integer?_toString n h
  rw [hc, List.cons_append] at hread ⊢
  rw [value?, skip_cons hblank]
  simp [hquote, hbracket, hbrace, hread]

/-- Items that are read behind a bracket are an array. -/
theorem value?_array {steps : Nat} {item : Json} {items : List Json} {c : Char}
    {cs ds ds' rest : List Char} (hskip : skip cs = c :: ds) (hc : c ≠ ']')
    (hitem : value? steps (c :: ds) = some (item, ds'))
    (hitems : items? steps ds' = some (items, rest)) :
    value? (steps + 1) ('[' :: cs) = some (.array (item :: items), rest) := by
  rw [value?, skip_cons (c := '[') rfl]
  simp [hskip, hc, hitem, hitems]

/-- Members that are read behind a brace are an object. -/
theorem value?_object {steps : Nat} {field : String × Json} {fields : List (String × Json)}
    {c : Char} {cs ds ds' rest : List Char} (hskip : skip cs = c :: ds) (hc : c ≠ '\x7d')
    (hfield : member? steps (c :: ds) = some (field, ds'))
    (hfields : fields? steps ds' = some (fields, rest)) :
    value? (steps + 1) ('\x7b' :: cs) = some (.object (field :: fields), rest) := by
  rw [value?, skip_cons (c := '\x7b') rfl]
  simp [hskip, hc, hfield, hfields]

theorem items?_comma {steps : Nat} {item : Json} {items : List Json} {cs cs' rest : List Char}
    (hitem : value? steps cs = some (item, cs')) (hitems : items? steps cs' = some (items, rest)) :
    items? (steps + 1) (',' :: cs) = some (item :: items, rest) := by
  simp only [items?, skip_cons (c := ',') rfl, hitem, Option.bind_eq_bind, Option.bind_some, hitems]
  rfl

/-- A member behind a comma is another one. -/
theorem fields?_comma {steps : Nat} {field : String × Json} {fields : List (String × Json)}
    {cs cs' rest : List Char} (hfield : member? steps cs = some (field, cs'))
    (hfields : fields? steps cs' = some (fields, rest)) :
    fields? (steps + 1) (',' :: cs) = some (field :: fields, rest) := by
  simp only [fields?, skip_cons (c := ',') rfl, hfield, Option.bind_eq_bind, Option.bind_some,
    hfields]
  rfl

theorem member?_quote {steps : Nat} (key : String) {value : Json} {cs rest : List Char}
    (h : value? steps cs = some (value, rest)) :
    member? (steps + 1) (quote key ++ ':' :: ' ' :: cs) = some ((key, value), rest) := by
  have hskip : skip (' ' :: cs) = skip cs := rfl
  have hspace : value? steps (' ' :: cs) = some (value, rest) :=
    (value?_of_skip hskip steps).trans h
  simp only [member?, quote, List.cons_append, List.append_assoc, List.nil_append,
    skip_cons (c := '"') rfl, skip_cons (c := ':') rfl, quoted?_escape, hspace,
    Option.bind_eq_bind, Option.bind_some]
  rfl

/-! ## Layout -/

theorem exists_head_layout (level : Nat) (j : Json) :
    ∃ c cs, layout level j = c :: cs ∧ isBlank c = false ∧ c ≠ ']' := by
  cases j with
  | number n =>
      obtain ⟨c, cs, hc, hstart⟩ := exists_head_toString n
      obtain ⟨hblank, -, -, hbracket, -⟩ := ne_of_startsNumber hstart
      exact ⟨c, cs, by rw [layout, hc], hblank, hbracket⟩
  | text s => exact ⟨_, _, by rw [layout, quote]; rfl, rfl, by decide⟩
  | array items => cases items <;> exact ⟨'[', _, layout.eq_def .., rfl, by decide⟩
  | object fields => cases fields <;> exact ⟨'\x7b', _, layout.eq_def .., rfl, by decide⟩

theorem endsNumber_items (level outer : Nat) (items : List Json) (rest : List Char) :
    EndsNumber (layoutItems level items ++ (newline outer ++ rest)) := by
  cases items with
  | nil => rintro c ⟨⟩; rfl
  | cons item items => rw [layoutItems]; rintro c ⟨⟩; rfl

theorem endsNumber_fields (level outer : Nat) (fields : List (String × Json))
    (rest : List Char) : EndsNumber (layoutFields level fields ++ (newline outer ++ rest)) := by
  rcases fields with - | ⟨⟨key, value⟩, fields⟩
  · rintro c ⟨⟩; rfl
  · rw [layoutFields]; rintro c ⟨⟩; rfl

mutual

theorem value?_layout (level : Nat) (j : Json) {k : Nat}
    (h : (layout level j).length ≤ k) {rest : List Char} (hrest : EndsNumber rest) :
    value? k (layout level j ++ rest) = some (j, rest) := by
  obtain ⟨c, cs, hc, -⟩ := exists_head_layout level j
  obtain ⟨k, rfl⟩ := Nat.exists_eq_add_one.2 (Nat.zero_lt_of_lt (hc ▸ h))
  match j with
  | .number n => exact value?_toString k n hrest
  | .text s =>
    simp only [layout, quote, value?, List.cons_append, List.append_assoc, List.nil_append,
      skip_cons (c := '"') rfl, quoted?_escape]
    rfl
  | .array [] => rfl
  | .array (item :: items) =>
    simp only [layout, List.append_assoc, List.cons_append, List.nil_append, List.length_append,
      List.length_cons] at h ⊢
    have hitem := value?_layout (level + 1) item (k := k) (by omega)
      (endsNumber_items (level + 1) level items (']' :: rest))
    obtain ⟨d, ds, hd, hblank, hbracket⟩ := exists_head_layout (level + 1) item
    rw [hd, List.cons_append] at hitem ⊢
    exact value?_array ((skip_newline _ _).trans (skip_cons hblank _)) hbracket hitem
      (items?_layout (level + 1) level items (by omega) rest)
  | .object [] => rfl
  | .object ((key, value) :: fields) =>
    simp only [layout, List.append_assoc, List.cons_append, List.nil_append, List.length_append,
      List.length_cons] at h ⊢
    obtain ⟨k, rfl⟩ := Nat.exists_eq_add_one.2 (show 0 < k by omega)
    have hvalue := value?_layout (level + 1) value (k := k) (by omega)
      (endsNumber_fields (level + 1) level fields ('\x7d' :: rest))
    exact value?_object ((skip_newline _ _).trans (skip_cons rfl _)) (by decide)
      (member?_quote key hvalue) (fields?_layout (level + 1) level fields (by omega) rest)

/-- The items behind one are read from their layout. -/
theorem items?_layout (level outer : Nat) (items : List Json) {k : Nat}
    (h : (layoutItems level items).length < k) (rest : List Char) :
    items? k (layoutItems level items ++ (newline outer ++ ']' :: rest)) =
      some (items, rest) := by
  obtain ⟨k, rfl⟩ := Nat.exists_eq_add_one.2 (Nat.zero_lt_of_lt h)
  match items with
  | [] =>
    simp only [layoutItems, List.nil_append, items?, skip_newline, skip_cons (c := ']') rfl]
  | item :: items =>
    simp only [layoutItems, List.append_assoc, List.cons_append, List.length_append,
      List.length_cons] at h ⊢
    have hitem := value?_layout level item (k := k) (by omega)
      (endsNumber_items level outer items (']' :: rest))
    exact items?_comma ((value?_of_skip (skip_newline _ _) _).trans hitem)
      (items?_layout level outer items (by omega) rest)

/-- The fields behind one are read from their layout. -/
theorem fields?_layout (level outer : Nat) (fields : List (String × Json)) {k : Nat}
    (h : (layoutFields level fields).length < k) (rest : List Char) :
    fields? k (layoutFields level fields ++ (newline outer ++ '\x7d' :: rest)) =
      some (fields, rest) := by
  obtain ⟨k, rfl⟩ := Nat.exists_eq_add_one.2 (Nat.zero_lt_of_lt h)
  match fields with
  | [] =>
    simp only [layoutFields, List.nil_append, fields?, skip_newline, skip_cons (c := '\x7d') rfl]
  | (key, value) :: fields =>
    simp only [layoutFields, List.append_assoc, List.cons_append, List.length_append,
      List.length_cons] at h ⊢
    obtain ⟨k, rfl⟩ := Nat.exists_eq_add_one.2 (show 0 < k by omega)
    have hvalue := value?_layout level value (k := k) (by omega)
      (endsNumber_fields level outer fields ('\x7d' :: rest))
    exact fields?_comma
      ((member?_of_skip (skip_newline _ _) _).trans (member?_quote key hvalue))
      (fields?_layout level outer fields (by omega) rest)

end

theorem endsNumber_of_skip {cs : List Char} (h : skip cs = []) : EndsNumber cs := by
  intro c hc
  have hblank := List.dropWhile_eq_nil_iff.1 h c (List.mem_of_mem_head? hc)
  cases hdigit : c.isDigit with
  | false => rfl
  | true => rw [(ne_of_startsNumber (.inr hdigit)).1] at hblank; cases hblank

theorem read?_layout (j : Json) {blanks : List Char} (h : skip blanks = []) :
    read? (String.ofList (layout 0 j ++ blanks)) = some j := by
  have hlength : (layout 0 j).length ≤ (layout 0 j ++ blanks).length := by
    rw [List.length_append]
    exact Nat.le_add_right _ _
  rw [read?, String.toList_ofList, value?_layout 0 j hlength (endsNumber_of_skip h)]
  exact if_pos h

/-- Other spellings of a document are read as well. -/
example : read? " [ -20 ,\"\\u00E9\\uD83D\\uDE00\\/\"]\n" =
    some (.array [.number (-20), .text "é😀/"]) := by
  rfl

/-- A surrogate without its partner is refused. -/
example : read? "\"\\ud83d\"" = none := by
  rfl

end Json

end CxxFloor
