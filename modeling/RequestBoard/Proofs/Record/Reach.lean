import RequestBoard.Proofs.Store.Rows
import RequestBoard.Proofs.Text.Parts
import RequestBoard.Record.Path

/-!
# What a path reaches

A path is followed from value to value, and each value on the way has to count as present.  It comes to
the same to look at the last value alone: what has something below it is an object or an array, and these
always count.

* `Path.stretches`, `Path.segments_ofString` — a text is cut at every dot, and empty segments are kept.
* `Path.Spells`, `Path.index?_eq_some_iff` — which segments are indices, and of what.
* `Json.Below`, `Json.Reaches` — **going down without a test**: one step, and any number of them.
* `Json.follow?_eq_some_iff` — following is reaching, with a test at the end.
* `Record.Reaches`, `Record.resolve_tests_the_end` — **the result**.
-/

namespace RequestBoard

namespace Path

/-! ## Segments -/

/-- All segments of a path. -/
def segments (path : Path) : List String := path.first :: path.rest

/-- The stretches of a text between its dots, as the standard library cuts it. -/
def stretches (text : String) : List String := (text.split '.').toList.map String.Slice.copy

theorem stretches_eq_splitOn (text : String) :
    stretches text = (text.toList.splitOn '.').map String.ofList := String.toList_split_char

theorem stretches_ne_nil (text : String) : stretches text ≠ [] := by
  rw [stretches_eq_splitOn]
  simp [List.splitOn_ne_nil]

/-- **A text is cut at every dot.** -/
theorem segments_ofString (text : String) : (ofString text).segments = stretches text := by
  rw [stretches_eq_splitOn, ← parts_eq_splitOn]
  rfl

/-! ## Indices -/

/-- The segment spells the index: it consists of decimal digits, at least one and after at most one plus
sign, and the number that they make is below `2 ^ 64`. -/
def Spells (segment : String) (i : Nat) : Prop :=
  ∃ digits : List Char, digits ≠ [] ∧ (∀ c ∈ digits, '0' ≤ c ∧ c ≤ '9') ∧
    (segment = String.ofList digits ∨ segment = String.ofList ('+' :: digits)) ∧
    i = Nat.ofDigitChars 10 digits 0 ∧ i < 18446744073709551616

theorem isDigit_iff {c : Char} : c.isDigit = true ↔ '0' ≤ c ∧ c ≤ '9' := Char.isDigit_iff_toNat

theorem decimal?_eq_some_iff {digits : List Char} {n : Nat} :
    decimal? digits = some n ↔
      digits ≠ [] ∧ (∀ c ∈ digits, '0' ≤ c ∧ c ≤ '9') ∧ n = Nat.ofDigitChars 10 digits 0 := by
  simp only [← isDigit_iff]
  unfold decimal?
  by_cases h : digits ≠ [] ∧ ∀ c ∈ digits, c.isDigit = true
  · rw [if_neg (by simpa using h), Option.some.injEq]
    exact ⟨fun hn => ⟨h.1, h.2, hn.symm⟩, fun hn => hn.2.2.symm⟩
  · rw [if_pos (by simpa [or_iff_not_imp_left] using h)]
    exact ⟨fun hn => absurd hn (by simp), fun hn => absurd ⟨hn.1, hn.2.1⟩ h⟩

/-- The digits of a segment, behind a plus sign or not. -/
theorem index?_ofList {digits : List Char} (hdigits : ∀ c ∈ digits, '0' ≤ c ∧ c ≤ '9') :
    index? (String.ofList digits) = (decimal? digits).filter (· < 18446744073709551616) := by
  unfold index?
  rw [String.toList_ofList]
  split
  · rename_i rest
    exact absurd (hdigits '+' (by simp)) (by decide)
  · rfl

theorem index?_ofList_plus (digits : List Char) :
    index? (String.ofList ('+' :: digits)) = (decimal? digits).filter (· < 18446744073709551616) := by
  unfold index?
  rw [String.toList_ofList]
  rfl

theorem index?_eq_some_iff {segment : String} {i : Nat} :
    index? segment = some i ↔ Spells segment i := by
  constructor
  · intro h
    obtain ⟨digits, hsegment, hindex⟩ : ∃ digits,
        (segment = String.ofList digits ∨ segment = String.ofList ('+' :: digits)) ∧
          (decimal? digits).filter (· < 18446744073709551616) = some i := by
      rw [← String.ofList_toList (s := segment)] at h ⊢
      unfold index? at h
      rw [String.toList_ofList] at h
      split at h
      · rename_i digits hlist
        exact ⟨digits, Or.inr (by rw [hlist]), h⟩
      · exact ⟨segment.toList, Or.inl rfl, h⟩
    rw [Option.filter_eq_some_iff, decimal?_eq_some_iff] at hindex
    obtain ⟨⟨hne, hdigits, hvalue⟩, hlt⟩ := hindex
    exact ⟨digits, hne, hdigits, hsegment, hvalue, of_decide_eq_true hlt⟩
  · rintro ⟨digits, hne, hdigits, hsegment, hvalue, hlt⟩
    have hindex : (decimal? digits).filter (· < 18446744073709551616) = some i := by
      rw [Option.filter_eq_some_iff, decimal?_eq_some_iff]
      exact ⟨⟨hne, hdigits, hvalue⟩, decide_eq_true hlt⟩
    rcases hsegment with rfl | rfl
    · rwa [index?_ofList hdigits]
    · rwa [index?_ofList_plus]

end Path

namespace Json

/-! ## Going down -/

/-- One step down: to a member of an object by its name, or to an item of an array by its index.  There
is nothing below any other value. -/
inductive Below : Json → String → Json → Prop where
  | member {members : List (String × Json)} {name : String} {child : Json} :
      find? members name = some child → Below (.object members) name child
  | item {items : List Json} {segment : String} {i : Nat} {child : Json} :
      Path.Spells segment i → items[i]? = some child → Below (.array items) segment child

/-- Any number of steps down, one for each segment. -/
inductive Reaches : Json → List String → Json → Prop where
  | here {value : Json} : Reaches value [] value
  | down {value child target : Json} {segment : String} {rest : List String} :
      Below value segment child → Reaches child rest target → Reaches value (segment :: rest) target

theorem child?_eq_some_iff {value child : Json} {segment : String} :
    value.child? segment = some child ↔ Below value segment child := by
  constructor
  · intro h
    cases value with
    | object members => exact .member h
    | array items =>
      obtain ⟨i, hindex, hitem⟩ := Option.bind_eq_some_iff.1 h
      exact .item (Path.index?_eq_some_iff.1 hindex) hitem
    | null | bool | number | string => exact absurd h (by simp [child?])
  · rintro (hmember | ⟨hindex, hitem⟩)
    · exact hmember
    · exact Option.bind_eq_some_iff.2 ⟨_, Path.index?_eq_some_iff.2 hindex, hitem⟩

/-- What has something below it is an object or an array, and so counts as present. -/
theorem Below.isTruthy {value child : Json} {segment : String} (h : Below value segment child) :
    value.isTruthy = true := by
  cases h <;> rfl

theorem Below.unique {value child other : Json} {segment : String} (h : Below value segment child)
    (hother : Below value segment other) : child = other :=
  Option.some.inj ((child?_eq_some_iff.2 h).symm.trans (child?_eq_some_iff.2 hother))

/-- A path leads to one value at most. -/
theorem Reaches.unique {value target other : Json} {segments : List String}
    (h : Reaches value segments target) (hother : Reaches value segments other) : target = other := by
  induction h with
  | here =>
    cases hother
    rfl
  | down hchild _ ih =>
    cases hother with
    | down hsame hrest => exact ih (hchild.unique hsame ▸ hrest)

/-- **Following is reaching, with a test at the end.**  A step is only ever made from a value that has
something below it, so the tests on the way always pass. -/
theorem follow?_eq_some_iff {value target : Json} {segments : List String} :
    value.follow? segments = some target ↔
      Reaches value segments target ∧ (segments ≠ [] → target.isTruthy = true) := by
  induction segments generalizing value with
  | nil =>
    constructor
    · intro h
      obtain rfl : value = target := Option.some.inj h
      exact ⟨.here, fun hne => absurd rfl hne⟩
    · rintro ⟨⟨⟩, -⟩
      rfl
  | cons segment rest ih =>
    rw [follow?, Option.bind_eq_some_iff]
    simp only [Option.filter_eq_some_iff, child?_eq_some_iff, ih]
    constructor
    · rintro ⟨child, ⟨hchild, htruthy⟩, hrest, hend⟩
      refine ⟨.down hchild hrest, fun _ => ?_⟩
      cases hrest with
      | here => exact htruthy
      | down _ _ => exact hend (List.cons_ne_nil _ _)
    · rintro ⟨⟨⟩ | ⟨hchild, hrest⟩, hend⟩
      have htruthy := hend (List.cons_ne_nil _ _)
      refine ⟨_, ⟨hchild, ?_⟩, hrest, fun _ => htruthy⟩
      cases hrest with
      | here => exact htruthy
      | down hbelow _ => exact hbelow.isTruthy

end Json

namespace Record

/-! ## Records -/

/-- The members of a record, found in the list of them. -/
theorem find?_toList (record : Record) (name : String) :
    Json.find? record.toList name = record[name]? := by
  rw [← Json.getElem?_membersOf, Json.membersOf]
  cases hvalue : record[name]? with
  | some value =>
    exact Std.ExtTreeMap.getElem?_ofList_of_mem Std.ReflCmp.compare_self
      Std.ExtTreeMap.distinct_keys_toList (Std.ExtTreeMap.mem_toList_iff_getElem?_eq_some.2 hvalue)
  | none =>
    refine Std.ExtTreeMap.getElem?_ofList_of_contains_eq_false ?_
    rw [Std.ExtTreeMap.map_fst_toList_eq_keys, List.contains_eq_mem, decide_eq_false_iff_not,
      Std.ExtTreeMap.mem_keys, Std.ExtTreeMap.mem_iff_isSome_getElem?, hvalue]
    exact Bool.false_ne_true

@[simp] theorem child?_toJson (record : Record) (name : String) :
    record.toJson.child? name = record[name]? := record.find?_toList name

/-- To look up a path in a record is to follow all of its segments from the record as a value. -/
theorem resolve_eq_follow? (record : Record) (path : String) (fallback : Json) :
    record.resolve path fallback =
      (record.toJson.follow? (Path.stretches path)).getD fallback := by
  rw [resolve, resolvePath, ← Path.segments_ofString, Path.segments, Json.follow?, child?_toJson]

/-- The value is where a path leads to from a record, whatever stands on the way. -/
def Reaches (record : Record) (path : String) (value : Json) : Prop :=
  Json.Reaches record.toJson (Path.stretches path) value

theorem follow?_stretches_eq_some_iff {record : Record} {path : String} {value : Json} :
    record.toJson.follow? (Path.stretches path) = some value ↔
      record.Reaches path value ∧ value.isTruthy = true := by
  rw [Json.follow?_eq_some_iff, Reaches]
  simp only [ne_eq, Path.stretches_ne_nil, not_false_eq_true, true_implies]

/-- **Only the end of a path is put to the test.**  The path is cut at every dot and followed down from
the record without any test.  If this leads to a value that counts as present, that value is the result,
and else the fallback is.  It leads to one value at most, and a result other than the fallback always
counts as present. -/
theorem resolve_tests_the_end (record : Record) (path : String) (fallback : Json) :
    ((∃ value, record.Reaches path value ∧ value.isTruthy = true ∧
        record.resolve path fallback = value) ∨
      (¬ ∃ value, record.Reaches path value ∧ value.isTruthy = true) ∧
        record.resolve path fallback = fallback) ∧
    (∀ value other, record.Reaches path value → record.Reaches path other → value = other) ∧
    (record.resolve path fallback ≠ fallback → (record.resolve path fallback).isTruthy = true) := by
  rw [resolve_eq_follow?]
  refine ⟨?_, fun value other h hother => h.unique hother, ?_⟩
  · cases hfollow : record.toJson.follow? (Path.stretches path) with
    | some value =>
      obtain ⟨hvalue, htruthy⟩ := follow?_stretches_eq_some_iff.1 hfollow
      exact Or.inl ⟨value, hvalue, htruthy, rfl⟩
    | none =>
      refine Or.inr ⟨?_, rfl⟩
      rintro ⟨value, hvalue⟩
      rw [follow?_stretches_eq_some_iff.2 hvalue] at hfollow
      exact absurd hfollow (by simp)
  · cases hfollow : record.toJson.follow? (Path.stretches path) with
    | some value => exact fun _ => (follow?_stretches_eq_some_iff.1 hfollow).2
    | none => exact fun hne => absurd rfl hne

/-- An empty segment is a name like any other. -/
example : Record.resolve (Json.membersOf [("a", .object [("", .object [("b", .bool true)])])]) "a..b"
    .null = .bool true := rfl

end Record

end RequestBoard
