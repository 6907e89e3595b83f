import Mathlib.Data.List.Flatten
import Mathlib.Data.List.Infix
import RequestBoard.Url

/-!
# Percent-encoded texts

A text is read by undoing percent-encoding, byte by byte.  Encoding it first makes no difference to that,
since what is encoded is never part of an escape.  So a text comes back from its encoded form just when it
has no escapes of its own; and if it has any, then it comes back shorter.

* `Utf8.bytes`, `Utf8.encode_eq_bytes` — the bytes of a text, one character at a time.
* `Url.Unescaped` — a text without percent-encoded bytes.
* `Url.percentDecode_percentEncode` — **encoding a text does not change what it stands for**.
* `Url.percentDecode_of_unescaped` — such a text stands for itself.
* `Url.length_percentDecode_lt` — **and any other one is longer than what it stands for**.
-/

namespace RequestBoard

/-! ## Bytes -/

namespace Utf8

/-- The UTF-8 form of characters. -/
def bytes (text : List Char) : Bytes := text.flatMap String.utf8EncodeChar

@[simp] theorem bytes_nil : bytes [] = [] := rfl

@[simp] theorem bytes_cons (c : Char) (text : List Char) :
    bytes (c :: text) = String.utf8EncodeChar c ++ bytes text := List.flatMap_cons

@[simp] theorem bytes_append (text more : List Char) :
    bytes (text ++ more) = bytes text ++ bytes more := List.flatMap_append

theorem toByteArray_bytes (text : List Char) :
    (bytes text).toByteArray = (String.ofList text).toByteArray := by
  rw [← String.utf8Encode_toList, String.toList_ofList, List.utf8Encode, bytes]

theorem encode_eq_bytes (text : String) : encode text = bytes text.toList := by
  rw [encode, String.toUTF8, ← String.utf8Encode_toList, List.utf8Encode, List.data_toByteArray, bytes]

/-- A text is known by its bytes. -/
theorem bytes_inj {text other : List Char} : bytes text = bytes other ↔ text = other := by
  refine ⟨fun h => ?_, fun h => by rw [h]⟩
  rw [← String.ofList_inj, ← String.toByteArray_inj, ← toByteArray_bytes, ← toByteArray_bytes, h]

theorem decode?_bytes (text : List Char) : decode? (bytes text) = some (String.ofList text) := by
  have hbytes : (⟨(bytes text).toArray⟩ : ByteArray) = (String.ofList text).toByteArray := by
    rw [← toByteArray_bytes, ← List.data_toByteArray]
  rw [decode?, hbytes, String.fromUTF8?, dif_pos (String.ofList text).isValidUTF8]
  rfl

theorem length_utf8EncodeChar_pos (c : Char) : 0 < (String.utf8EncodeChar c).length := by
  rw [String.length_utf8EncodeChar]
  exact Char.utf8Size_pos c

theorem length_bytes_pos {text : List Char} (h : text ≠ []) : 0 < (bytes text).length := by
  obtain ⟨c, rest, rfl⟩ := List.exists_cons_of_ne_nil h
  have hpos := length_utf8EncodeChar_pos c
  rw [bytes_cons, List.length_append]
  omega

/-- What is left of a text is all of it if it takes up as many bytes. -/
theorem eq_of_sublist {text other : List Char} (h : text.Sublist other)
    (hle : (bytes other).length ≤ (bytes text).length) : text = other :=
  bytes_inj.1 ((h.flatMap String.utf8EncodeChar).eq_of_length_le hle)

end Utf8

namespace Url

/-! ## Escapes -/

/-- Whether a text begins with a percent-encoded byte. -/
def beginsEscaped : List Char → Bool
  | '%' :: a :: b :: _ => (hexDigit? a).isSome && (hexDigit? b).isSome
  | _ => false

/-- There is no percent-encoded byte in the text. -/
def Unescaped (text : List Char) : Prop := ∀ rest, rest <:+ text → beginsEscaped rest = false

instance (text : List Char) : Decidable (Unescaped text) :=
  decidable_of_iff (∀ rest ∈ text.tails, beginsEscaped rest = false) <| by
    simp only [List.mem_tails, Unescaped]

theorem unescaped_cons {c : Char} {text : List Char} :
    Unescaped (c :: text) ↔ beginsEscaped (c :: text) = false ∧ Unescaped text := by
  simp only [Unescaped, List.suffix_cons_iff, or_imp, forall_and, forall_eq]

theorem percentDecode_escaped {a b : Char} {high low : Nat} (ha : hexDigit? a = some high)
    (hb : hexDigit? b = some low) (rest : List Char) :
    percentDecode ('%' :: a :: b :: rest) = UInt8.ofNat (high * 16 + low) :: percentDecode rest := by
  rw [percentDecode, ha, hb]

/-- A character that does not begin an escape stands for itself. -/
theorem percentDecode_cons {c : Char} {text : List Char} (h : beginsEscaped (c :: text) = false) :
    percentDecode (c :: text) = String.utf8EncodeChar c ++ percentDecode text := by
  rw [percentDecode.eq_def]
  split
  case h_1 a b rest heq =>
    obtain ⟨rfl, rfl⟩ := List.cons.inj heq
    split
    case h_1 high low ha hb => simp [beginsEscaped, ha, hb] at h
    case h_2 => rfl
  case h_2 heq =>
    obtain ⟨rfl, rfl⟩ := List.cons.inj heq
    rfl
  case h_3 heq => exact absurd heq (List.cons_ne_nil _ _)

/-- What a text is that begins with an escape. -/
theorem exists_of_beginsEscaped {text : List Char} (h : beginsEscaped text = true) :
    ∃ a b high low rest, text = '%' :: a :: b :: rest ∧ hexDigit? a = some high ∧
      hexDigit? b = some low := by
  unfold beginsEscaped at h
  split at h
  case h_1 a b rest =>
    rw [Bool.and_eq_true, Option.isSome_iff_exists, Option.isSome_iff_exists] at h
    obtain ⟨⟨high, hhigh⟩, low, hlow⟩ := h
    exact ⟨a, b, high, low, rest, rfl, hhigh, hlow⟩
  case h_2 => exact absurd h (by decide)

/-- Induction on a text, one escape or other character at a time. -/
theorem escape_induction {motive : List Char → Prop} (nil : motive [])
    (escaped : ∀ a b high low rest, hexDigit? a = some high → hexDigit? b = some low →
      motive rest → motive ('%' :: a :: b :: rest))
    (cons : ∀ c rest, beginsEscaped (c :: rest) = false → motive rest → motive (c :: rest))
    (text : List Char) : motive text := by
  induction hlength : text.length using Nat.strong_induction_on generalizing text with
  | _ length ih =>
    cases hescaped : beginsEscaped text with
    | true =>
      obtain ⟨a, b, high, low, rest, rfl, ha, hb⟩ := exists_of_beginsEscaped hescaped
      refine escaped a b high low rest ha hb (ih rest.length ?_ rest rfl)
      simp only [← hlength, List.length_cons]
      omega
    | false =>
      cases text with
      | nil => exact nil
      | cons c rest =>
        refine cons c rest hescaped (ih rest.length ?_ rest rfl)
        simp only [← hlength, List.length_cons]
        omega

/-! ## Decoding -/

theorem beginsEscaped_of_escape {a b : Char} {high low : Nat} (ha : hexDigit? a = some high)
    (hb : hexDigit? b = some low) (rest : List Char) :
    beginsEscaped ('%' :: a :: b :: rest) = true := by
  simp [beginsEscaped, ha, hb]

/-- A text without escapes stands for itself. -/
theorem percentDecode_of_unescaped {text : List Char} (h : Unescaped text) :
    percentDecode text = Utf8.bytes text := by
  induction text using escape_induction with
  | nil => rfl
  | escaped a b high low rest ha hb =>
    rw [unescaped_cons, beginsEscaped_of_escape ha hb] at h
    exact absurd h.1 (by decide)
  | cons c rest hplain ih =>
    rw [percentDecode_cons hplain, ih (unescaped_cons.1 h).2, Utf8.bytes_cons]

theorem length_percentDecode_le (text : List Char) :
    (percentDecode text).length ≤ (Utf8.bytes text).length := by
  induction text using escape_induction with
  | nil => exact le_refl _
  | escaped a b high low rest ha hb ih =>
    have hpercent := Utf8.length_utf8EncodeChar_pos '%'
    simp only [percentDecode_escaped ha hb, Utf8.bytes_cons, List.length_cons, List.length_append]
    omega
  | cons c rest hplain ih =>
    simp only [percentDecode_cons hplain, Utf8.bytes_cons, List.length_append]
    omega

/-- **A text with escapes is longer than what it stands for.** -/
theorem length_percentDecode_lt {text : List Char} (h : ¬ Unescaped text) :
    (percentDecode text).length < (Utf8.bytes text).length := by
  induction text using escape_induction with
  | nil => exact absurd (by decide) h
  | escaped a b high low rest ha hb =>
    have hle := length_percentDecode_le rest
    have hpercent := Utf8.length_utf8EncodeChar_pos '%'
    have hfirst := Utf8.length_utf8EncodeChar_pos a
    simp only [percentDecode_escaped ha hb, Utf8.bytes_cons, List.length_cons, List.length_append]
    omega
  | cons c rest hplain ih =>
    have hrest : ¬ Unescaped rest := fun hrest => h (unescaped_cons.2 ⟨hplain, hrest⟩)
    have hlt := ih hrest
    simp only [percentDecode_cons hplain, Utf8.bytes_cons, List.length_append]
    omega

/-! ## Encoding -/

/-- A character that is encoded in a path is not a hexadecimal digit. -/
theorem hexDigit?_of_inPathSet {c : Char} (h : inPathSet c = true) : hexDigit? c = none := by
  rw [inPathSet, Bool.or_eq_true] at h
  rcases h with hcontrol | hmem
  · have hrange : c.toNat < 0x20 ∨ 0x7E < c.toNat := by simpa [isControl] using hcontrol
    have houtside : ∀ first last : Char, 0x20 ≤ first.toNat → last.toNat ≤ 0x7E →
        ¬ (first ≤ c ∧ c ≤ last) := by
      rintro first last hfirst hlast ⟨hle, hge⟩
      rw [Char.le_def, UInt32.le_iff_toNat_le, Char.toNat_val, Char.toNat_val] at hle hge
      omega
    have hdigit : ¬ c.isDigit = true := by
      rw [Char.isDigit, Bool.and_eq_true, decide_eq_true_eq, decide_eq_true_eq]
      exact houtside '0' '9' (by decide) (by decide)
    rw [hexDigit?, if_neg hdigit, if_neg (houtside 'a' 'f' (by decide) (by decide)),
      if_neg (houtside 'A' 'F' (by decide) (by decide))]
  · simp only [List.contains_iff_mem, List.mem_cons, List.not_mem_nil, or_false] at hmem
    rcases hmem with rfl | rfl | rfl | rfl | rfl | rfl | rfl | rfl | rfl <;> rfl

theorem inPathSet_of_hexDigit? {c : Char} {digit : Nat} (h : hexDigit? c = some digit) :
    inPathSet c = false := by
  by_contra hset
  rw [hexDigit?_of_inPathSet (by simpa using hset)] at h
  exact Option.some_ne_none digit h.symm

theorem percentEncode_cons (set : Char → Bool) (c : Char) (text : List Char) :
    percentEncode set (c :: text) =
      (if set c then (String.utf8EncodeChar c).flatMap percent else [c]) ++ percentEncode set text :=
  List.flatMap_cons

theorem percentEncode_cons_of_not {set : Char → Bool} {c : Char} (h : set c = false)
    (text : List Char) : percentEncode set (c :: text) = c :: percentEncode set text := by
  simp [percentEncode_cons, h]

/-- The digits of a percent-encoded byte. -/
theorem hexDigit?_toUpper_digitChar {n : Nat} (h : n < 16) :
    hexDigit? (Nat.digitChar n).toUpper = some n := by
  revert n
  decide

theorem percentDecode_percent (b : UInt8) (rest : List Char) :
    percentDecode (percent b ++ rest) = b :: percentDecode rest := by
  have hlt : b.toNat < 256 := b.toNat_lt
  have hbyte : UInt8.ofNat (b.toNat / 16 * 16 + b.toNat % 16) = b := by
    rw [Nat.div_add_mod', UInt8.ofNat_toNat]
  rw [percent, List.cons_append, List.cons_append, List.cons_append, List.nil_append,
    percentDecode_escaped (hexDigit?_toUpper_digitChar (by omega))
      (hexDigit?_toUpper_digitChar (by omega)), hbyte]

theorem percentDecode_flatMap_percent (bytes : Bytes) (rest : List Char) :
    percentDecode (bytes.flatMap percent ++ rest) = bytes ++ percentDecode rest := by
  induction bytes with
  | nil => rfl
  | cons b bytes ih =>
    rw [List.flatMap_cons, List.append_assoc, percentDecode_percent, ih, List.cons_append]

theorem beginsEscaped_of_ne {c : Char} (h : c ≠ '%') (rest : List Char) :
    beginsEscaped (c :: rest) = false := by
  simp [beginsEscaped, h]

theorem beginsEscaped_first {a : Char} (h : hexDigit? a = none) (rest : List Char) :
    beginsEscaped ('%' :: a :: rest) = false := by
  cases rest <;> simp [beginsEscaped, h]

theorem beginsEscaped_second {b : Char} (h : hexDigit? b = none) (a : Char) (rest : List Char) :
    beginsEscaped ('%' :: a :: b :: rest) = false := by
  simp [beginsEscaped, h]

/-- What is encoded begins with a percent sign. -/
theorem exists_percentEncode_cons {set : Char → Bool} {c : Char} (h : set c = true)
    (text : List Char) : ∃ rest, percentEncode set (c :: text) = '%' :: rest := by
  obtain ⟨b, bytes, hbytes⟩ := List.exists_cons_of_length_pos (Utf8.length_utf8EncodeChar_pos c)
  rw [percentEncode_cons, if_pos h, hbytes, List.flatMap_cons, percent]
  exact ⟨_, rfl⟩

/-- Encoding what follows a character does not make an escape of it, nor break one. -/
theorem beginsEscaped_percentEncode (c : Char) (text : List Char) :
    beginsEscaped (c :: percentEncode inPathSet text) = beginsEscaped (c :: text) := by
  have hsign : hexDigit? '%' = none := rfl
  by_cases hpercent : c = '%'
  case neg => rw [beginsEscaped_of_ne hpercent, beginsEscaped_of_ne hpercent]
  subst hpercent
  cases text with
  | nil => rfl
  | cons a text =>
    cases ha : inPathSet a with
    | true =>
      obtain ⟨rest, hencoded⟩ := exists_percentEncode_cons ha text
      rw [hencoded, beginsEscaped_first hsign, beginsEscaped_first (hexDigit?_of_inPathSet ha)]
    | false =>
      rw [percentEncode_cons_of_not ha]
      cases text with
      | nil => rfl
      | cons b text =>
        cases hb : inPathSet b with
        | true =>
          obtain ⟨rest, hencoded⟩ := exists_percentEncode_cons hb text
          rw [hencoded, beginsEscaped_second hsign, beginsEscaped_second (hexDigit?_of_inPathSet hb)]
        | false =>
          rw [percentEncode_cons_of_not hb]
          rfl

/-- **Encoding a text does not change what it stands for.** -/
theorem percentDecode_percentEncode (text : List Char) :
    percentDecode (percentEncode inPathSet text) = percentDecode text := by
  induction text using escape_induction with
  | nil => rfl
  | escaped a b high low rest ha hb ih =>
    rw [percentEncode_cons_of_not (rfl : inPathSet '%' = false),
      percentEncode_cons_of_not (inPathSet_of_hexDigit? ha),
      percentEncode_cons_of_not (inPathSet_of_hexDigit? hb), percentDecode_escaped ha hb,
      percentDecode_escaped ha hb, ih]
  | cons c rest hplain ih =>
    rw [percentDecode_cons hplain, ← ih]
    cases hset : inPathSet c with
    | true => rw [percentEncode_cons, if_pos hset, percentDecode_flatMap_percent]
    | false =>
      rw [percentEncode_cons_of_not hset, percentDecode_cons]
      rw [beginsEscaped_percentEncode, hplain]

end Url

end RequestBoard
