import RequestBoard.Proofs.Store.Growth

/-!
# A batch can be cut anywhere

A batch is nothing but a run of updates that may end early.  Where it ends is fixed by its first bad row
alone, and so it makes no difference whether rows come in one batch or in two, but for the positions that
faults speak of.

* `updates`, `foldl_call_updates` — the updates that rows ask for, and that they are the rows applied in
  order.
* `Fault.shift`, `updateFrom_add` — a batch that is counted from a later position ends in the same store,
  with the positions of its faults shifted.
* `updateFrom_append` — two runs of rows, one after the other.
* `updateBulk_ends_at_first_bad` — **the result**.
-/

namespace RequestBoard

/-- The fault of a row that stands so much later in its batch. -/
def Fault.shift (offset : Nat) : Fault → Fault
  | .missingIdentifier batch index => .missingIdentifier batch (index + offset)
  | fault => fault

namespace Store

/-! ## Updates -/

/-- The updates that rows ask for: one for each row that has an id. -/
def updates (rows : List View.Row) : List Call :=
  rows.filterMap fun row => row.id.map fun id => .update id row.record

theorem foldl_call_updates (rows : List View.Row) (store : Store) :
    (updates rows).foldl call store = store.applyAll rows := by
  rw [updates, applyAll, List.foldl_filterMap]
  congr 1
  funext current row
  rw [applyRow]
  cases row.id <;> rfl

/-! ## Positions -/

/-- What a row brings in does not depend on its position, and neither does the kind of its fault. -/
theorem entry_add (batch : String) (index offset : Nat) (row : View.Row) :
    entry batch (index + offset) row = (entry batch index row).mapError (Fault.shift offset) := by
  unfold entry
  cases row.id with
  | none => rfl
  | some id =>
    cases row.doc with
    | none => rfl
    | some doc => cases doc <;> rfl

theorem updateFrom_add (batch : String) (rows : List View.Row) (index offset : Nat) (store : Store) :
    updateFrom batch (index + offset) store rows =
      ((updateFrom batch index store rows).1,
        (updateFrom batch index store rows).2.mapError (Fault.shift offset)) := by
  induction rows generalizing index store with
  | nil => rfl
  | cons row rows ih =>
    rw [updateFrom, updateFrom, entry_add]
    cases entry batch index row with
    | ok new =>
      have hrest := ih (index + 1) (store.update new.1 new.2)
      rw [Nat.add_right_comm] at hrest
      exact hrest
    | error fault => rfl

/-! ## Two runs of rows -/

/-- A run of rows that has failed is not gone on with. -/
theorem updateFrom_append_of_error {batch : String} {rows : List View.Row} {index : Nat}
    {store : Store} {fault : Fault} (h : (updateFrom batch index store rows).2 = .error fault)
    (later : List View.Row) :
    updateFrom batch index store (rows ++ later) = updateFrom batch index store rows := by
  induction rows generalizing index store with
  | nil => exact absurd h (by simp [updateFrom])
  | cons row rows ih =>
    rw [updateFrom] at h
    rw [List.cons_append, updateFrom, updateFrom]
    cases hentry : entry batch index row with
    | ok new => exact ih (by rwa [hentry] at h)
    | error first => rfl

/-- A run of rows that has succeeded is gone on with from where it has ended. -/
theorem updateFrom_append_of_ok {batch : String} {rows : List View.Row} {index : Nat} {store : Store}
    (h : (updateFrom batch index store rows).2 = .ok ()) (later : List View.Row) :
    updateFrom batch index store (rows ++ later) =
      updateFrom batch (index + rows.length) (updateFrom batch index store rows).1 later := by
  induction rows generalizing index store with
  | nil => rfl
  | cons row rows ih =>
    rw [updateFrom] at h
    rw [List.cons_append, updateFrom, updateFrom, List.length_cons, Nat.add_comm rows.length,
      ← Nat.add_assoc]
    cases hentry : entry batch index row with
    | ok new => exact ih (by rwa [hentry] at h)
    | error first => exact absurd h (by simp [hentry])

/-- A bad row at a position of a batch with none before it: where the batch ends. -/
theorem updateBulk_of_bad {rows : List View.Row} {k : Nat} {row : View.Row} (hrow : rows[k]? = some row)
    (hbad : row.IsBad) (hbefore : ∀ earlier ∈ rows.take k, ¬ earlier.IsBad) (store : Store)
    (batch : String) :
    store.updateBulk batch rows = (store.applyAll (rows.take k), .error (row.fault batch k)) := by
  obtain ⟨hlt, rfl⟩ := List.getElem?_eq_some_iff.1 hrow
  have hsplit : rows = rows.take k ++ rows[k] :: rows.drop (k + 1) := by
    rw [List.getElem_cons_drop, List.take_append_drop]
  have hlength : 0 + (rows.take k).length = k := by
    rw [List.length_take]
    omega
  calc store.updateBulk batch rows
      = updateFrom batch 0 store (rows.take k ++ rows[k] :: rows.drop (k + 1)) := by
        rw [← hsplit, updateBulk]
    _ = (store.applyAll (rows.take k), .error (rows[k].fault batch k)) := by
        rw [updateFrom_of_bad batch hbefore hbad, hlength]

/-- **A batch ends at its first bad row, and can be cut anywhere.**  Without a bad row it succeeds, and
the store is that of the updates for its rows, made one by one.  With one, the fault is that of the first
bad row, under its own position, and the store is that of the updates for the rows before it: nothing of
the bad row or of a later one is applied.  So two batches that come as one do what they do one after the
other: the second one is only begun if the first has succeeded, and of its faults only the positions are
shifted. -/
theorem updateBulk_ends_at_first_bad (store : Store) (batch : String) (rows : List View.Row) :
    ((∀ row ∈ rows, ¬ row.IsBad) →
      store.updateBulk batch rows = ((updates rows).foldl call store, .ok ())) ∧
    (∀ k row, rows[k]? = some row → row.IsBad → (∀ earlier ∈ rows.take k, ¬ earlier.IsBad) →
      store.updateBulk batch rows =
        ((updates (rows.take k)).foldl call store, .error (row.fault batch k))) ∧
    (∀ later, store.updateBulk batch (rows ++ later) =
      match store.updateBulk batch rows with
      | (stopped, .error fault) => (stopped, .error fault)
      | (reached, .ok ()) =>
        ((reached.updateBulk batch later).1,
          (reached.updateBulk batch later).2.mapError (Fault.shift rows.length))) := by
  refine ⟨fun hgood => ?_, fun k row hrow hbad hbefore => ?_, fun later => ?_⟩
  · rw [updateBulk_of_good hgood, foldl_call_updates]
  · rw [updateBulk_of_bad hrow hbad hbefore, foldl_call_updates]
  · cases hrows : store.updateBulk batch rows with
    | mk reached outcome =>
      have hrun : updateFrom batch 0 store rows = (reached, outcome) := hrows
      cases outcome with
      | error fault =>
        have hstop := updateFrom_append_of_error (congrArg Prod.snd hrun) later
        exact hstop.trans hrun
      | ok done =>
        have hgo := updateFrom_append_of_ok (congrArg Prod.snd hrun) later
        rw [hrun, updateFrom_add] at hgo
        exact hgo

/-- A row that overlays one of its own batch, and a row without an id behind it. -/
example : ((∅ : Store).updateBulk "primary" [.document "a" .null, .document "a" (.object []), {}]).2 =
    .error (.missingIdentifier "primary" 2) := rfl

end Store

end RequestBoard
