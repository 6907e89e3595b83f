import Mathlib.Data.List.Forall2
import RequestBoard.Proofs.Record.Reach
import RequestBoard.Proofs.Store.Growth
import RequestBoard.Proofs.Store.LastWriter

/-!
# A store can be written out and read in again

A store keeps no trace of how it came about.  Its records, gone through in order, are all of it: written
out as rows, one for each record, they make the same store again, and whatever comes after them finds what
it would have found.

* `Holds.unique` — **a store is settled by the rows that it holds**.
* `toRows`, `InStep.holds_toRows` — a store written out as rows; it holds these, whatever rows have made
  it.
* `InStep.toList_eq_map`, `forall₂_toList_iff` — two stores are alike, by any comparison of records,
  exactly if going through them is.
* `merge_of_ok` — the agent batch meets a store, not the registry batch that has made it.
* `toRows_lose_nothing` — **the result**.
-/

namespace RequestBoard

/-! ## Rows with one word on everything -/

namespace View

/-- Ids that do not repeat are all of the distinct ones. -/
theorem distinctIds_of_nodup {rows : List Row} (h : (rows.filterMap (·.id)).Nodup) :
    distinctIds rows = rows.filterMap (·.id) := by
  rw [distinctIds]
  generalize rows.filterMap (·.id) = ids at h
  induction ids with
  | nil => rfl
  | cons id ids ih =>
    obtain ⟨hnew, hids⟩ := List.nodup_cons.1 h
    have hkept : (ids.filter fun other => !other == id) = ids := by
      refine List.filter_eq_self.2 fun other hother => ?_
      have hne : other ≠ id := fun heq => hnew (heq ▸ hother)
      simp [hne]
    rw [List.eraseDups_cons, hkept, ih hids]

/-- Where all rows of an id say the same of a field, this is the last word on it. -/
theorem lastValue?_of_forall {rows : List Row} {id field : String} {value? : Option Json}
    (hsome : ∃ row ∈ rows, row.id = some id)
    (hall : ∀ row ∈ rows, row.id = some id → row.field? field = value?) :
    lastValue? rows id field = value? := by
  cases hlast : lastValue? rows id field with
  | none =>
    obtain ⟨row, hmem, hid⟩ := hsome
    rw [← hall row hmem hid, lastValue?_eq_none_iff.1 hlast row hmem hid]
  | some value =>
    obtain ⟨before, row, after, rfl, hid, hvalue, -⟩ := lastValue?_eq_some_iff.1 hlast
    rw [← hall row (by simp) hid, hvalue]

/-- A row that carries a record as its document has the record's fields. -/
@[simp] theorem Row.field?_document (id : String) (record : Record) (name : String) :
    (document id record.toJson).field? name = record[name]? :=
  record.find?_toList name

theorem Row.not_isBad_document (id : String) (record : Record) :
    ¬ (document id record.toJson).IsBad := by
  rintro (hid | ⟨doc, hdoc, -, hobject⟩)
  · exact Option.some_ne_none id hid
  · exact hobject record.toList (Option.some.inj hdoc).symm

end View

namespace Store

/-! ## What settles a store -/

theorem Holds.inStep {store : Store} {rows : List View.Row} (h : Holds store rows) : store.InStep :=
  ⟨h.ids_eq ▸ View.nodup_distinctIds rows, h.isSome_get?⟩

/-- **A store is settled by the rows that it holds.** -/
theorem Holds.unique {store other : Store} {rows : List View.Row} (h : Holds store rows)
    (hother : Holds other rows) : store = other := by
  have hids : store.ids = other.ids := h.ids_eq.trans hother.ids_eq.symm
  have hget : ∀ id, store.get? id = other.get? id := by
    intro id
    by_cases hid : id ∈ store.ids
    · obtain ⟨record, hrecord, hfield⟩ := h.exists_record hid
      obtain ⟨record', hrecord', hfield'⟩ := hother.exists_record (hids ▸ hid)
      have hsame : record = record' := by
        ext1 field
        rw [hfield, hfield']
      rw [hrecord, hrecord', hsame]
    · rw [h.get?_eq_none hid, hother.get?_eq_none (hids ▸ hid)]
  have hrecords : store.records = other.records := Std.ExtTreeMap.ext_getElem? hget
  cases store
  cases other
  cases hids
  cases hrecords
  rfl

/-! ## A store as rows -/

/-- The store written out: a row for each record, in the order of the ids. -/
def toRows (store : Store) : List View.Row :=
  store.toList.map fun entry => .document entry.1 entry.2.toJson

theorem not_isBad_of_mem_toRows (store : Store) : ∀ row ∈ store.toRows, ¬ row.IsBad := by
  intro row hrow
  obtain ⟨entry, -, rfl⟩ := List.mem_map.1 hrow
  exact View.Row.not_isBad_document entry.1 entry.2

/-- Going through a store comes by every id, with its record. -/
theorem InStep.toList_eq_map {store : Store} (h : store.InStep) :
    store.toList = store.ids.map fun id => (id, (store.get? id).getD ∅) := by
  rw [toList, ← List.filterMap_eq_map]
  refine List.filterMap_congr fun id hid => ?_
  obtain ⟨record, hget⟩ := Option.isSome_iff_exists.1 ((h.isSome_get? id).2 hid)
  simp [hget]

theorem InStep.mem_toList_iff {store : Store} (h : store.InStep) {id : String} {record : Record} :
    (id, record) ∈ store.toList ↔ store.get? id = some record := by
  simp only [toList, List.mem_filterMap, Option.map_eq_some_iff, Prod.mk.injEq]
  constructor
  · rintro ⟨key, -, found, hget, rfl, rfl⟩
    exact hget
  · intro hget
    exact ⟨id, (h.isSome_get? id).1 (by rw [hget]; rfl), record, hget, rfl, rfl⟩

/-- **A store holds the rows that it is written out as**, whatever rows have made it. -/
theorem InStep.holds_toRows {store : Store} (h : store.InStep) : Holds store store.toRows := by
  have hids : store.toRows.filterMap (·.id) = store.ids := by
    rw [← h.toList_map_fst, toRows, List.filterMap_map, ← List.filterMap_eq_map]
    rfl
  refine ⟨?_, h.isSome_get?, fun id field => ?_⟩
  · rw [View.distinctIds_of_nodup (hids ▸ h.nodup), hids]
  -- each id has one row, with the whole record
  · have hrow : ∀ row ∈ store.toRows, row.id = some id →
        row.field? field = (store.get? id).bind fun record => record[field]? := by
      intro row hmem hid
      obtain ⟨⟨key, record⟩, hentry, rfl⟩ := List.mem_map.1 hmem
      obtain rfl : key = id := Option.some.inj hid
      rw [View.Row.field?_document, h.mem_toList_iff.1 hentry, Option.bind_some]
    cases hget : store.get? id with
    | some record =>
      rw [hget] at hrow
      exact (View.lastValue?_of_forall
        ⟨_, List.mem_map.2 ⟨(id, record), h.mem_toList_iff.2 hget, rfl⟩, rfl⟩ hrow).symm
    | none =>
      rw [hget] at hrow
      exact (View.lastValue?_eq_none_iff.2 hrow).symm

/-- A store written out makes the same store again. -/
theorem InStep.applyAll_toRows {store : Store} (h : store.InStep) :
    (∅ : Store).applyAll store.toRows = store :=
  (holds_empty.applyAll store.toRows).unique h.holds_toRows

theorem InStep.merge_toRows_nil {store : Store} (h : store.InStep) :
    merge store.toRows [] = .ok store := by
  rw [merge_eq_ok_iff, List.append_nil]
  exact ⟨store.not_isBad_of_mem_toRows, h.applyAll_toRows.symm⟩

/-! ## Two stores -/

/-- Stores in step are equal exactly if going through them is. -/
theorem InStep.eq_iff_toList_eq {store other : Store} (h : store.InStep) (hother : other.InStep) :
    store = other ↔ store.toList = other.toList := by
  refine ⟨fun heq => congrArg toList heq, fun hlist => ?_⟩
  rw [← h.applyAll_toRows, ← hother.applyAll_toRows, toRows, toRows, hlist]

/-- However records are compared, stores in step have the same ids with like records exactly if going
through them comes by the same ids with like records. -/
theorem InStep.forall₂_toList_iff {store other : Store} (h : store.InStep) (hother : other.InStep)
    (alike : Record → Record → Prop) :
    List.Forall₂ (fun a b => a.1 = b.1 ∧ alike a.2 b.2) store.toList other.toList ↔
      store.ids = other.ids ∧ ∀ id, Option.Rel alike (store.get? id) (other.get? id) := by
  -- where the ids are the same, records are missing in both stores or in neither
  have hrel : store.ids = other.ids → ∀ id, Option.Rel alike (store.get? id) (other.get? id) ↔
      (id ∈ store.ids → alike ((store.get? id).getD ∅) ((other.get? id).getD ∅)) := by
    intro hids id
    by_cases hid : id ∈ store.ids
    · obtain ⟨record, hget, -⟩ := h.holds_toRows.exists_record hid
      obtain ⟨record', hget', -⟩ := hother.holds_toRows.exists_record (hids ▸ hid)
      simp [hget, hget', hid]
    · rw [h.holds_toRows.get?_eq_none hid, hother.holds_toRows.get?_eq_none (hids ▸ hid)]
      exact iff_of_true .none fun hmem => absurd hmem hid
  rw [h.toList_eq_map, hother.toList_eq_map, List.forall₂_map_left_iff, List.forall₂_map_right_iff]
  constructor
  · intro hall
    have hids : store.ids = other.ids := List.forall₂_eq_eq_eq ▸ hall.imp fun _ _ hpair => hpair.1
    rw [← hids, List.forall₂_same] at hall
    exact ⟨hids, fun id => (hrel hids id).2 fun hid => (hall id hid).2⟩
  · rintro ⟨hids, hget⟩
    rw [← hids, List.forall₂_same]
    exact fun id hid => ⟨rfl, (hrel hids id).1 (hget id) hid⟩

/-! ## A batch that comes after -/

/-- The agent batch meets the store that the registry batch has made, and nothing else of it. -/
theorem merge_of_ok {primary : List View.Row} {store : Store} (h : merge primary [] = .ok store)
    (secondary : List View.Row) :
    merge primary secondary =
      (store.updateBulk secondaryBatch secondary).2.map fun _ =>
        (store.updateBulk secondaryBatch secondary).1 := by
  obtain ⟨hgood, hstore⟩ := merge_eq_ok_iff.1 h
  rw [List.append_nil] at hgood hstore
  rw [merge, updateBulk_of_good hgood, show empty.applyAll primary = store from hstore.symm]
  rcases hsecond : store.updateBulk secondaryBatch secondary with ⟨reached, fault | done⟩
  · simp only [hsecond]
    rfl
  · simp only [hsecond]
    rfl

/-- **Written out, a store loses nothing.**  Take the store of any registry batch that has been applied,
and write it out as rows, one for each record: as a registry batch they do what the original one did,
whatever agent batch comes after them, down to the fault that it may end with.  With nothing after them
they make the same store again; and that goes for every store, whatever calls have made it.  So two stores
are equal exactly if going through them comes by the same ids and records in the same order; and likewise
if records are compared by anything else than equality. -/
theorem toRows_lose_nothing :
    (∀ primary store, merge primary [] = .ok store →
      ∀ secondary, merge store.toRows secondary = merge primary secondary) ∧
    (∀ calls, merge (ofCalls calls).toRows [] = .ok (ofCalls calls)) ∧
    (∀ calls others, ofCalls calls = ofCalls others ↔
      (ofCalls calls).toList = (ofCalls others).toList) ∧
    ∀ calls others (alike : Record → Record → Prop),
      ((ofCalls calls).ids = (ofCalls others).ids ∧
        ∀ id, Option.Rel alike ((ofCalls calls).get? id) ((ofCalls others).get? id)) ↔
      List.Forall₂ (fun a b => a.1 = b.1 ∧ alike a.2 b.2) (ofCalls calls).toList
        (ofCalls others).toList := by
  refine ⟨fun primary store hprimary secondary => ?_, fun calls => ?_, fun calls others => ?_,
    fun calls others alike => ?_⟩
  · have hagain := (holds_of_merge hprimary).inStep.merge_toRows_nil
    rw [merge_of_ok hagain, merge_of_ok hprimary]
  · exact (inStep_ofCalls calls).merge_toRows_nil
  · exact (inStep_ofCalls calls).eq_iff_toList_eq (inStep_ofCalls others)
  · exact ((inStep_ofCalls calls).forall₂_toList_iff (inStep_ofCalls others) alike).symm

/-- Two rows of one id become one row, and a batch after it meets the same record and has the same
fault. -/
theorem toRows_of_overlaid :
    ∃ store, merge [.document "a" (.object [("x", .null)]), .document "a" (.object [("y", .null)])] [] =
        .ok store ∧
      store.toRows.length = 1 ∧
      merge store.toRows [.document "a" (.object [("x", .bool true)])] =
        merge [.document "a" (.object [("x", .null)]), .document "a" (.object [("y", .null)])]
          [.document "a" (.object [("x", .bool true)])] ∧
      merge store.toRows [.document "b" .null, {}] = .error (.missingIdentifier "secondary" 1) := by
  have hmerge : merge
      [.document "a" (.object [("x", .null)]), .document "a" (.object [("y", .null)])] [] =
        .ok ((∅ : Store).applyAll
          [.document "a" (.object [("x", .null)]), .document "a" (.object [("y", .null)])]) := rfl
  have hsame := toRows_lose_nothing.1 _ _ hmerge
  exact ⟨_, hmerge, rfl, hsame _, (hsame _).trans rfl⟩

end Store

end RequestBoard
