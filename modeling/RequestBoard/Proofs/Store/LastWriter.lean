import RequestBoard.Proofs.Store.Batch

/-!
# The last writer of a field wins

A store made from rows can be read off the rows, without replaying any update.

* `Store.Holds` — what it means that a store holds rows: its ids are theirs in the order in which they
  first occur, and a field of a record is the last word of the rows on it.
* `holds_empty`, `Holds.applyRow`, `Holds.applyAll` — **the invariant of a batch**: one more row, one
  more word.
* `merge_last_writer` — so two merged batches hold the registry rows followed by the agent rows.
-/

namespace RequestBoard.Store

/-! ## What a store holds -/

/-- The store holds the rows: it has their ids in the order in which they first occur, a record for
exactly these ids, and in the records the last words of the rows. -/
structure Holds (store : Store) (rows : List View.Row) : Prop where
  ids_eq : store.ids = View.distinctIds rows
  isSome_get? : ∀ id, (store.get? id).isSome = true ↔ id ∈ store.ids
  field_eq : ∀ id field, ((store.get? id).bind fun record => record[field]?) =
    View.lastValue? rows id field

theorem holds_empty : Holds ∅ [] where
  ids_eq := rfl
  isSome_get? id := by
    show (empty.get? id).isSome = true ↔ id ∈ empty.ids
    simp [empty, get?, ids]
  field_eq id field := by
    show ((empty.get? id).bind fun record => record[field]?) = none
    simp [empty, get?]

/-- An update writes the fields of its document and keeps all other fields of all records. -/
theorem field_update (store : Store) (id : String) (doc : Record) (key field : String) :
    (((store.update id doc).get? key).bind fun record => record[field]?) =
      (if id = key then doc[field]? else none).or
        ((store.get? key).bind fun record => record[field]?) := by
  rw [get?_update]
  by_cases h : key = id
  · subst h
    rw [if_pos rfl, if_pos rfl, Option.bind_some, getElem?_overlay]
    cases store.get? key <;> simp
  · rw [if_neg h, if_neg (Ne.symm h), Option.none_or]

/-- **One more row, one more word.**  The store stays in step with the rows that were applied to it. -/
theorem Holds.applyRow {store : Store} {rows : List View.Row} (h : Holds store rows)
    (row : View.Row) : Holds (store.applyRow row) (rows ++ [row]) := by
  cases hid : row.id with
  | none =>
    -- a row without an id has no word on anything
    have hsame : store.applyRow row = store := by rw [Store.applyRow, hid]
    rw [hsame]
    refine ⟨by rw [h.ids_eq, View.distinctIds_concat_none hid], h.isSome_get?, ?_⟩
    intro key field
    rw [h.field_eq, View.lastValue?_append, View.lastValue?_singleton, hid]
    simp
  | some id =>
    have hupdate : store.applyRow row = store.update id row.record := by rw [Store.applyRow, hid]
    rw [hupdate]
    have hknown : (store.get? id).isSome = true ↔ id ∈ View.distinctIds rows := by
      rw [h.isSome_get?, h.ids_eq]
    refine ⟨?_, ?_, ?_⟩
    · rw [ids_update, View.distinctIds_concat hid, h.ids_eq]
      by_cases hmem : id ∈ View.distinctIds rows
      · rw [if_pos (hknown.2 hmem), if_pos hmem]
      · rw [if_neg (fun hsome => hmem (hknown.1 hsome)), if_neg hmem]
    · exact isSome_get?_update h.isSome_get? id row.record
    · intro key field
      rw [field_update, h.field_eq, View.lastValue?_append, View.lastValue?_singleton, hid,
        View.Row.getElem?_record]
      simp

/-- The rows of a batch, applied one after the other, are held after those that were held before. -/
theorem Holds.applyAll {store : Store} {past : List View.Row} (h : Holds store past)
    (rows : List View.Row) : Holds (store.applyAll rows) (past ++ rows) := by
  induction rows generalizing store past with
  | nil => rwa [applyAll_nil, List.append_nil]
  | cons row rows ih =>
    have := ih (h.applyRow row)
    rwa [List.append_assoc, List.singleton_append] at this

theorem holds_of_merge {primary secondary : List View.Row} {store : Store}
    (h : merge primary secondary = .ok store) : Holds store (primary ++ secondary) := by
  obtain ⟨-, rfl⟩ := merge_eq_ok_iff.1 h
  exact holds_empty.applyAll (primary ++ secondary)

/-! ## Reading a held record -/

theorem Holds.get?_eq_none {store : Store} {rows : List View.Row} (h : Holds store rows) {id : String}
    (hid : id ∉ store.ids) : store.get? id = none := by
  cases hget : store.get? id with
  | none => rfl
  | some record => exact absurd ((h.isSome_get? id).1 (by rw [hget]; rfl)) hid

theorem Holds.exists_record {store : Store} {rows : List View.Row} (h : Holds store rows) {id : String}
    (hid : id ∈ store.ids) :
    ∃ record, store.get? id = some record ∧
      ∀ field, record[field]? = View.lastValue? rows id field := by
  obtain ⟨record, hget⟩ := Option.isSome_iff_exists.1 ((h.isSome_get? id).2 hid)
  refine ⟨record, hget, fun field => ?_⟩
  rw [← h.field_eq, hget, Option.bind_some]

/-- **The last writer wins, field by field.**  A merged store has the distinct ids of the registry rows
followed by the agent rows, in the order in which they first occur, and a record for these ids alone.
A record has a field exactly when some row of its id does, and then with the whole value that the last
of these rows gives it; so an agent row with the field beats every registry row.  An id that comes with
absent or null documents only has the empty record. -/
theorem merge_last_writer {primary secondary : List View.Row} {store : Store}
    (h : merge primary secondary = .ok store) :
    store.ids = View.distinctIds (primary ++ secondary) ∧
    (∀ id ∈ store.ids, ∃ record, store.get? id = some record ∧
      (∀ field, record[field]?.isSome = true ↔
        ∃ row ∈ primary ++ secondary, row.id = some id ∧ (row.field? field).isSome = true) ∧
      (∀ field value, record[field]? = some value ↔
        ∃ before row after, primary ++ secondary = before ++ row :: after ∧ row.id = some id ∧
          row.field? field = some value ∧
          ∀ later ∈ after, later.id = some id → later.field? field = none) ∧
      (∀ field, record[field]? =
        (View.lastValue? secondary id field).or (View.lastValue? primary id field)) ∧
      ((∀ row ∈ primary ++ secondary, row.id = some id → row.doc = none ∨ row.doc = some .null) →
        record = ∅)) ∧
    ∀ id, id ∉ store.ids → store.get? id = none := by
  have hholds := holds_of_merge h
  refine ⟨hholds.ids_eq, fun id hid => ?_, fun id hid => hholds.get?_eq_none hid⟩
  obtain ⟨record, hget, hfield⟩ := hholds.exists_record hid
  refine ⟨record, hget, fun field => ?_, fun field value => ?_, fun field => ?_, fun hnull => ?_⟩
  · rw [hfield]
    constructor
    · intro hsome
      obtain ⟨value, hvalue⟩ := Option.isSome_iff_exists.1 hsome
      obtain ⟨before, row, after, hrows, hrow, hvalue, -⟩ := View.lastValue?_eq_some_iff.1 hvalue
      exact ⟨row, by simp [hrows], hrow, by simp [hvalue]⟩
    · rintro ⟨row, hmem, hrow, hsome⟩
      rw [← Option.ne_none_iff_isSome]
      intro hnone
      rw [View.lastValue?_eq_none_iff.1 hnone row hmem hrow] at hsome
      exact absurd hsome (by simp)
  · rw [hfield, View.lastValue?_eq_some_iff]
  · rw [hfield, View.lastValue?_append]
  · ext1 field
    rw [hfield, View.lastValue?_eq_none_iff.2]
    · simp
    · intro row hmem hrow
      rw [← View.Row.getElem?_record, View.Row.record_eq_empty (hnull row hmem hrow)]
      simp

/-- An agent row replaces `status` as a whole and leaves `workflow` alone; a null document makes an
empty record. -/
theorem merge_last_writer_of_two :
    ∃ store record, merge
        [.document "a" (.object [("workflow", .string "W1"), ("status", .null)]), .document "b" .null]
        [.document "a" (.object [("status", .bool true)])] = .ok store ∧
      store.ids = ["a", "b"] ∧ store.get? "a" = some record ∧
      record["workflow"]? = some (.string "W1") ∧ record["status"]? = some (.bool true) ∧
      store.get? "b" = some ∅ := by
  have hmerge : merge
      [.document "a" (.object [("workflow", .string "W1"), ("status", .null)]), .document "b" .null]
      [.document "a" (.object [("status", .bool true)])] = .ok ((∅ : Store).applyAll
        [.document "a" (.object [("workflow", .string "W1"), ("status", .null)]),
          .document "b" .null, .document "a" (.object [("status", .bool true)])]) := rfl
  obtain ⟨hids, hrecord, -⟩ := merge_last_writer hmerge
  obtain ⟨a, ha, -, -, hfield, -⟩ := hrecord "a" (by rw [hids]; decide)
  obtain ⟨b, hb, -, -, -, hempty⟩ := hrecord "b" (by rw [hids]; decide)
  have hnull : b = ∅ := hempty fun row hmem hid => by
    simp only [List.cons_append, List.nil_append, List.mem_cons, List.not_mem_nil, or_false] at hmem
    rcases hmem with rfl | rfl | rfl
    · exact absurd hid (by decide)
    · exact Or.inr rfl
    · exact absurd hid (by decide)
  exact ⟨_, a, hmerge, hids, ha, (hfield "workflow").trans rfl, (hfield "status").trans rfl,
    hnull ▸ hb⟩

end RequestBoard.Store
