import Mathlib.Data.List.Induction
import RequestBoard.Store

/-!
# What the rows of a batch say

Everything the store does with a batch can be said of the rows alone, before any store is built.

* `View.Row.field?`, `View.Row.record` — what a row's document has under a name, and all of it as a
  record; `getElem?_record` says that the two agree.
* `View.Row.IsBad` — the rows that no batch may hold, and `View.Row.fault`, the fault that such a row
  is reported with.
* `View.distinctIds` — the ids of rows, each once and in the order in which they first occur.
* `View.lastValue?` — **the last word on a field**: the value of a field in the last row that has both
  the id and the field.  `lastValue?_eq_some_iff` spells this out, and `lastValue?_append` says that
  later rows are asked first.
-/

namespace RequestBoard

/-! ## Maps of members -/

theorem Json.lookup_eq_findSome? (members : List (String × Json)) (name : String) :
    members.lookup name =
      members.findSome? fun member => if compare member.1 name = .eq then some member.2 else none := by
  induction members with
  | nil => rfl
  | cons member members ih =>
    obtain ⟨key, value⟩ := member
    by_cases h : key = name
    · subst h
      simp
    · have hbeq : (name == key) = false := by simpa using fun h' => h h'.symm
      simp [List.lookup_cons, hbeq, h, ih]

/-- The map of a list of members finds what the list finds: the last member of a name. -/
@[simp] theorem Json.getElem?_membersOf (members : List (String × Json)) (name : String) :
    (Json.membersOf members)[name]? = Json.find? members name := by
  rw [Json.membersOf, Json.find?, Json.lookup_eq_findSome?, Std.ExtTreeMap.ofList_eq_insertMany_empty,
    Std.ExtTreeMap.getElem?_insertMany_list]
  simp

namespace View

namespace Row

/-! ## One row -/

/-- The value that the row's document has under a field name, if it is an object with such a field. -/
def field? (row : Row) (name : String) : Option Json := row.doc.bind fun doc => doc.get? name

/-- The fields of the row's document; there are none unless the document is an object. -/
def record (row : Row) : Record :=
  match row.doc with
  | some (.object members) => Json.membersOf members
  | _ => ∅

/-- A row that a batch may not hold: it has no id, or a document that is neither null nor an object. -/
def IsBad (row : Row) : Prop :=
  row.id = none ∨ ∃ doc, row.doc = some doc ∧ doc ≠ .null ∧ ∀ members, doc ≠ .object members

/-- The fault that a bad row at a position of a batch is reported with.  The missing id comes first:
without it there is nothing to call the document by. -/
def fault (row : Row) (batch : String) (index : Nat) : Fault :=
  match row.id with
  | none => .missingIdentifier batch index
  | some id => .invalidRecord id

@[simp] theorem getElem?_record (row : Row) (name : String) : row.record[name]? = row.field? name := by
  unfold record field?
  cases hd : row.doc with
  | none => simp
  | some doc => cases doc <;> simp [Json.get?]

theorem record_eq_empty {row : Row} (h : row.doc = none ∨ row.doc = some .null) : row.record = ∅ := by
  unfold record
  rcases h with h | h <;> rw [h]

end Row

/-! ## The ids of rows -/

/-- The ids of rows, each once, in the order in which they first occur. -/
def distinctIds (rows : List Row) : List String := (rows.filterMap (·.id)).eraseDups

theorem distinctIds_concat_none {rows : List Row} {row : Row} (h : row.id = none) :
    distinctIds (rows ++ [row]) = distinctIds rows := by
  simp [distinctIds, h]

/-- A row appends its id unless an earlier row has it already. -/
theorem distinctIds_concat {rows : List Row} {row : Row} {id : String} (h : row.id = some id) :
    distinctIds (rows ++ [row]) =
      if id ∈ distinctIds rows then distinctIds rows else distinctIds rows ++ [id] := by
  have hlast : [row].filterMap (·.id) = [id] := by simp [h]
  rw [distinctIds, List.filterMap_append, hlast, List.eraseDups_append, ← distinctIds,
    List.cons_removeAll]
  by_cases hmem : id ∈ distinctIds rows
  · have hin : id ∈ rows.filterMap (·.id) := by simpa [distinctIds] using hmem
    simp [hmem, hin]
  · have hout : id ∉ rows.filterMap (·.id) := by simpa [distinctIds] using hmem
    simp [hmem, hout, List.eraseDups_cons]

/-- No id is listed twice. -/
theorem nodup_distinctIds (rows : List Row) : (distinctIds rows).Nodup := by
  induction rows using List.reverseRecOn with
  | nil => exact List.nodup_nil
  | append_singleton rows row ih =>
    cases hid : row.id with
    | none => rwa [distinctIds_concat_none hid]
    | some id =>
      rw [distinctIds_concat hid]
      split
      · exact ih
      · rename_i hnew
        refine List.nodup_append.2 ⟨ih, by simp, ?_⟩
        intro known hknown new hid' heq
        rw [List.mem_singleton] at hid'
        exact hnew (by rwa [← hid', ← heq])

/-! ## The last word on a field -/

/-- The value of a field in the last row that has both the id and the field. -/
def lastValue? (rows : List Row) (id field : String) : Option Json :=
  rows.findSomeRev? fun row => if row.id = some id then row.field? field else none

/-- Later rows are asked first. -/
theorem lastValue?_append (rows later : List Row) (id field : String) :
    lastValue? (rows ++ later) id field = (lastValue? later id field).or (lastValue? rows id field) := by
  simp [lastValue?, List.findSome?_append]

theorem lastValue?_singleton (row : Row) (id field : String) :
    lastValue? [row] id field = if row.id = some id then row.field? field else none := by
  simp [lastValue?]

/-- There is no last word exactly when no row of the id has the field. -/
theorem lastValue?_eq_none_iff {rows : List Row} {id field : String} :
    lastValue? rows id field = none ↔ ∀ row ∈ rows, row.id = some id → row.field? field = none := by
  simp [lastValue?]

/-- Once a later row of the id has the field, earlier rows have no say. -/
theorem lastValue?_append_of_word {later : List Row} {row : Row} {id field : String}
    (hmem : row ∈ later) (hid : row.id = some id) (hfield : (row.field? field).isSome = true)
    (rows : List Row) : lastValue? (rows ++ later) id field = lastValue? later id field := by
  rw [lastValue?_append]
  cases hlast : lastValue? later id field with
  | some value => rfl
  | none =>
    rw [lastValue?_eq_none_iff.1 hlast row hmem hid] at hfield
    exact absurd hfield (by simp)

/-- **The last word.**  A value is the last word on a field exactly when some row of the id has it and
no later row of the id has the field. -/
theorem lastValue?_eq_some_iff {rows : List Row} {id field : String} {value : Json} :
    lastValue? rows id field = some value ↔
      ∃ before row after, rows = before ++ row :: after ∧ row.id = some id ∧
        row.field? field = some value ∧
        ∀ later ∈ after, later.id = some id → later.field? field = none := by
  constructor
  · intro h
    rw [lastValue?, List.findSomeRev?_eq_findSome?_reverse, List.findSome?_eq_some_iff] at h
    obtain ⟨after, row, before, hrows, hrow, hafter⟩ := h
    have hid : row.id = some id := by
      by_contra hne
      rw [if_neg hne] at hrow
      exact absurd hrow (by simp)
    refine ⟨before.reverse, row, after.reverse, ?_, hid, by rwa [if_pos hid] at hrow, ?_⟩
    · rw [← List.reverse_reverse rows, hrows]
      simp
    · intro later hlater hlid
      have := hafter later (List.mem_reverse.1 hlater)
      rwa [if_pos hlid] at this
  · rintro ⟨before, row, after, rfl, hid, hvalue, hafter⟩
    have hlater : lastValue? after id field = none := lastValue?_eq_none_iff.2 hafter
    rw [lastValue?_append, ← List.singleton_append, lastValue?_append, hlater, lastValue?_singleton,
      if_pos hid, hvalue]
    rfl

end View

end RequestBoard
