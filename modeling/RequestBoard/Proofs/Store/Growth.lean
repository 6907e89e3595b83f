import Mathlib.Data.List.Basic
import RequestBoard.Proofs.Store.Batch

/-!
# A store only grows

A store has its ids twice, in order and as the keys of its records, and going through its records passes
over an id that has none.  No sequence of calls lets the two lists drift apart, not even with batches
that are given up half-way.

* `Store.Call`, `call`, `ofCalls` — the calls that change a store, and the store that a sequence of them
  makes; a batch that fails leaves behind what it has applied.
* `call_keeps` — **what every update keeps, every call keeps**, however far its batch comes.
* `InStep` — the ids in order are the keys of the records, each once; `toList_map_fst` says that then no
  record is passed over.
* `Extends` — ids keep their places, and records keep their fields.
* `ofCalls_grows` — **the two together, for every sequence of calls**.
-/

namespace RequestBoard.Store

/-! ## Calls -/

/-- A call that may change a store. -/
inductive Call where
  /-- A document comes in for an id. -/
  | update (id : String) (doc : Record)
  /-- A batch of rows comes in under a name. -/
  | updateBulk (batch : String) (rows : List View.Row)

/-- The store after a call.  A batch that fails leaves behind what it has applied. -/
def call (store : Store) : Call → Store
  | .update id doc => store.update id doc
  | .updateBulk batch rows => (store.updateBulk batch rows).1

/-- The store that a sequence of calls makes of the empty one. -/
def ofCalls (calls : List Call) : Store := calls.foldl call ∅

theorem ofCalls_append (calls later : List Call) :
    ofCalls (calls ++ later) = later.foldl call (ofCalls calls) := List.foldl_append ..

/-- What every update keeps, the rows of a batch keep, however many of them are applied. -/
theorem updateFrom_keeps {P : Store → Prop}
    (hupdate : ∀ store id doc, P store → P (store.update id doc)) (batch : String)
    (rows : List View.Row) (index : Nat) {store : Store} (h : P store) :
    P (updateFrom batch index store rows).1 := by
  induction rows generalizing index store with
  | nil => exact h
  | cons row rows ih =>
    rw [updateFrom]
    cases entry batch index row with
    | ok new => exact ih (index + 1) (hupdate store new.1 new.2 h)
    | error fault => exact h

/-- **What every update keeps, every call keeps.** -/
theorem call_keeps {P : Store → Prop} (hupdate : ∀ store id doc, P store → P (store.update id doc))
    {store : Store} (h : P store) (next : Call) : P (store.call next) := by
  cases next with
  | update id doc => exact hupdate store id doc h
  | updateBulk batch rows => exact updateFrom_keeps hupdate batch rows 0 h

/-- What every update keeps, a sequence of calls keeps. -/
theorem foldl_call_keeps {P : Store → Prop}
    (hupdate : ∀ store id doc, P store → P (store.update id doc)) (calls : List Call) {store : Store}
    (h : P store) : P (calls.foldl call store) := by
  induction calls generalizing store with
  | nil => exact h
  | cons next calls ih => exact ih (call_keeps hupdate h next)

/-! ## Ids and records stay in step -/

/-- The ids in order are the ids that have a record, each listed once. -/
structure InStep (store : Store) : Prop where
  nodup : store.ids.Nodup
  isSome_get? : ∀ id, (store.get? id).isSome = true ↔ id ∈ store.ids

theorem inStep_empty : InStep ∅ where
  nodup := List.nodup_nil
  isSome_get? id := by
    show (empty.get? id).isSome = true ↔ id ∈ empty.ids
    simp [empty, get?, ids]

/-- An update lists an id exactly when it makes a record for it. -/
theorem InStep.update {store : Store} (h : store.InStep) (id : String) (doc : Record) :
    (store.update id doc).InStep := by
  refine ⟨?_, isSome_get?_update h.isSome_get? id doc⟩
  rw [ids_update]
  split
  · exact h.nodup
  · rename_i hnew
    have hid : id ∉ store.ids := fun hmem => hnew ((h.isSome_get? id).2 hmem)
    refine List.nodup_append.2 ⟨h.nodup, by simp, ?_⟩
    intro known hknown new hmem heq
    rw [List.mem_singleton] at hmem
    exact hid (by rwa [← hmem, ← heq])

theorem inStep_ofCalls (calls : List Call) : (ofCalls calls).InStep :=
  foldl_call_keeps (fun _ id doc h => h.update id doc) calls inStep_empty

/-- The ids in order and the keys of the records are the same ids. -/
theorem InStep.perm_keys {store : Store} (h : store.InStep) :
    store.ids.Perm store.records.keys := by
  refine (List.perm_ext_iff_of_nodup h.nodup Std.ExtTreeMap.nodup_keys).2 fun id => ?_
  rw [← h.isSome_get? id, Std.ExtTreeMap.mem_keys, Std.ExtTreeMap.mem_iff_isSome_getElem?, get?]

/-- Going through the records passes over no id. -/
theorem InStep.toList_map_fst {store : Store} (h : store.InStep) :
    store.toList.map (·.1) = store.ids := by
  have hrecord : ∀ id ∈ store.ids,
      ((store.get? id).map fun record => (id, record)).map (·.1) = some id := by
    intro id hid
    obtain ⟨record, hget⟩ := Option.isSome_iff_exists.1 ((h.isSome_get? id).2 hid)
    rw [hget]
    rfl
  rw [toList, List.map_filterMap]
  exact (List.filterMap_congr hrecord).trans List.filterMap_some

/-! ## Nothing goes away -/

/-- A later store has all that an earlier one has: its ids in their places, and for each of its records
one with at least its fields. -/
structure Extends (store later : Store) : Prop where
  ids : store.ids <+: later.ids
  record : ∀ id record, store.get? id = some record →
    ∃ grown, later.get? id = some grown ∧ ∀ field ∈ record, field ∈ grown

theorem Extends.refl (store : Store) : store.Extends store :=
  ⟨List.prefix_rfl, fun _ record hget => ⟨record, hget, fun _ hfield => hfield⟩⟩

theorem Extends.trans {store later last : Store} (h : store.Extends later) (hlast : later.Extends last) :
    store.Extends last := by
  refine ⟨h.ids.trans hlast.ids, fun id record hget => ?_⟩
  obtain ⟨grown, hgrown, hfields⟩ := h.record id record hget
  obtain ⟨full, hfull, hmore⟩ := hlast.record id grown hgrown
  exact ⟨full, hfull, fun field hfield => hmore field (hfields field hfield)⟩

/-- An update appends an id or adds fields to a record. -/
theorem extends_update (store : Store) (id : String) (doc : Record) :
    store.Extends (store.update id doc) := by
  refine ⟨?_, fun key record hget => ?_⟩
  · rw [ids_update]
    split
    · exact List.prefix_rfl
    · exact List.prefix_append ..
  · rw [get?_update]
    by_cases hkey : key = id
    · subst hkey
      rw [if_pos rfl, hget, Option.getD_some]
      refine ⟨_, rfl, fun field hfield => ?_⟩
      rw [Record.overlay, Std.ExtTreeMap.mem_union_iff]
      exact Or.inl hfield
    · rw [if_neg hkey]
      exact ⟨record, hget, fun _ hfield => hfield⟩

theorem extends_foldl_call (store : Store) (calls : List Call) :
    store.Extends (calls.foldl call store) :=
  foldl_call_keeps (fun later id doc h => h.trans (extends_update later id doc)) calls
    (Extends.refl store)

/-- **A store only grows, and its two lists of ids stay in step.**  Whatever calls have been made, with
any of the batches failing anywhere, the ids in order are the keys of the records, each listed once.  So
the size, the ids, the records with their ids and the records alone all agree in number, and no id is
passed over.  Every further call, successful or not, leaves the ids where they are and appends to them,
and takes neither a record nor a field of a record away; and so does any number of further calls. -/
theorem ofCalls_grows (calls : List Call) :
    (ofCalls calls).ids.Nodup ∧
    (ofCalls calls).ids.Perm (ofCalls calls).records.keys ∧
    (ofCalls calls).ids.length = (ofCalls calls).size ∧
    (ofCalls calls).toList.map (·.1) = (ofCalls calls).ids ∧
    (ofCalls calls).toList.length = (ofCalls calls).size ∧
    (ofCalls calls).list.length = (ofCalls calls).size ∧
    (∀ next, (ofCalls calls).Extends ((ofCalls calls).call next)) ∧
    ∀ later, (ofCalls calls).Extends (ofCalls (calls ++ later)) := by
  have hstep := inStep_ofCalls calls
  have hlength : (ofCalls calls).toList.length = (ofCalls calls).size := by
    rw [← List.length_map (fun entry : String × Record => entry.1), hstep.toList_map_fst]
    rfl
  refine ⟨hstep.nodup, hstep.perm_keys, rfl, hstep.toList_map_fst, hlength, ?_, ?_, ?_⟩
  · rw [list, List.length_map, hlength]
  · intro next
    exact extends_foldl_call (ofCalls calls) [next]
  · intro later
    rw [ofCalls_append]
    exact extends_foldl_call (ofCalls calls) later

/-- A batch that fails at its second row has applied its first one. -/
example : (ofCalls [.updateBulk "primary" [.document "a" .null, {}]]).ids = ["a"] := rfl

end RequestBoard.Store
