import RequestBoard.Proofs.Store.Rows

/-!
# A batch is a run of updates up to its first bad row

* `Store.applyRow`, `Store.applyAll` — the rows of a batch as plain updates, without any check.
* `updateFrom_of_good` — **a batch without bad rows is that run of updates**, and it succeeds.
* `updateFrom_of_bad` — **a bad row stops the batch**: what comes before it stays applied, nothing of it
  or after it is, and the fault is its own.
* `merge_eq_ok_iff` — so two batches merge exactly when neither holds a bad row, and the merged store
  is the run of updates over both.
* `merge_reports_first_bad` — otherwise the fault is that of the first bad row, and no later row can
  change it.
-/

namespace RequestBoard.Store

/-! ## One update -/

@[simp] theorem getElem?_overlay (record doc : Record) (field : String) :
    (record.overlay doc)[field]? = (doc[field]?).or record[field]? := by
  rw [Record.overlay, Std.ExtTreeMap.getElem?_union]

/-- An update changes the record of its own id and no other. -/
theorem get?_update (store : Store) (id : String) (doc : Record) (key : String) :
    (store.update id doc).get? key =
      if key = id then some (((store.get? id).getD ∅).overlay doc) else store.get? key := by
  have hinsert : ∀ record : Record, (store.records.insert id record)[key]? =
      if key = id then some record else store.records[key]? := by
    intro record
    rw [Std.ExtTreeMap.getElem?_insert]
    by_cases h : key = id
    · subst h
      simp
    · simp [h, Ne.symm h]
  cases hid : store.get? id with
  | some known =>
    simp only [update, hid]
    exact hinsert _
  | none =>
    have hdoc : doc = Record.overlay ∅ doc := by
      ext1 field
      simp
    simp only [update, hid]
    exact (hinsert doc).trans (by rw [Option.getD_none, ← hdoc]; rfl)

/-- An update appends its id unless the store has it already. -/
theorem ids_update (store : Store) (id : String) (doc : Record) :
    (store.update id doc).ids = if (store.get? id).isSome then store.ids else store.ids ++ [id] := by
  cases hid : store.get? id <;> simp [update, ids, hid]

/-- If the ids of a store are those that have a record, they still are after an update. -/
theorem isSome_get?_update {store : Store}
    (h : ∀ key, (store.get? key).isSome = true ↔ key ∈ store.ids) (id : String) (doc : Record)
    (key : String) :
    ((store.update id doc).get? key).isSome = true ↔ key ∈ (store.update id doc).ids := by
  rw [get?_update, ids_update]
  by_cases hkey : key = id
  · subst hkey
    by_cases hsome : (store.get? key).isSome = true
    · rw [if_pos rfl, if_pos hsome]
      exact ⟨fun _ => (h key).1 hsome, fun _ => rfl⟩
    · rw [if_pos rfl, if_neg hsome]
      simp
  · rw [if_neg hkey, h]
    split
    · exact Iff.rfl
    · simp [hkey]

/-! ## Rows as updates -/

/-- The store with one row applied to it.  A row without an id is passed over. -/
def applyRow (store : Store) (row : View.Row) : Store :=
  match row.id with
  | some id => store.update id row.record
  | none => store

/-- The store with rows applied to it in order. -/
def applyAll (store : Store) (rows : List View.Row) : Store := rows.foldl applyRow store

@[simp] theorem applyAll_nil (store : Store) : store.applyAll [] = store := rfl

@[simp] theorem applyAll_cons (store : Store) (row : View.Row) (rows : List View.Row) :
    store.applyAll (row :: rows) = (store.applyRow row).applyAll rows := rfl

theorem applyAll_append (store : Store) (rows later : List View.Row) :
    store.applyAll (rows ++ later) = (store.applyAll rows).applyAll later := List.foldl_append ..

/-! ## Entries -/

theorem entry_of_bad {row : View.Row} (h : row.IsBad) (batch : String) (index : Nat) :
    entry batch index row = .error (row.fault batch index) := by
  unfold entry View.Row.fault
  rcases h with hid | ⟨doc, hdoc, hnull, hobject⟩
  · rw [hid]
  · cases hid : row.id with
    | none => rfl
    | some id =>
      rw [hdoc]
      cases doc with
      | null => exact absurd rfl hnull
      | object members => exact absurd rfl (hobject members)
      | bool | number | string | array => rfl

theorem entry_of_good {row : View.Row} (h : ¬ row.IsBad) (batch : String) (index : Nat) :
    ∃ id, row.id = some id ∧ entry batch index row = .ok (id, row.record) := by
  obtain ⟨id, hid⟩ : ∃ id, row.id = some id :=
    Option.ne_none_iff_exists'.1 fun hnone => h (Or.inl hnone)
  refine ⟨id, hid, ?_⟩
  unfold entry View.Row.record
  rw [hid]
  cases hdoc : row.doc with
  | none => rfl
  | some doc =>
    have hgood : ¬ (doc ≠ .null ∧ ∀ members, doc ≠ .object members) :=
      fun hdoc' => h (Or.inr ⟨doc, hdoc, hdoc'⟩)
    cases doc with
    | null => rfl
    | object members => rfl
    | bool | number | string | array => exact absurd ⟨by simp, by simp⟩ hgood

/-! ## One batch -/

/-- **A batch without bad rows is a run of updates.** -/
theorem updateFrom_of_good (batch : String) {rows : List View.Row}
    (h : ∀ row ∈ rows, ¬ row.IsBad) (index : Nat) (store : Store) :
    updateFrom batch index store rows = (store.applyAll rows, .ok ()) := by
  induction rows generalizing index store with
  | nil => rfl
  | cons row rows ih =>
    obtain ⟨id, hid, hentry⟩ := entry_of_good (h row (by simp)) batch index
    rw [updateFrom, hentry, applyAll_cons, applyRow, hid]
    exact ih (fun later hlater => h later (List.mem_cons_of_mem _ hlater)) (index + 1) _

/-- **A bad row stops the batch.**  The rows before it stay applied, no later row counts, and the
fault carries the bad row's own position. -/
theorem updateFrom_of_bad (batch : String) {before : List View.Row} {row : View.Row}
    (hbefore : ∀ earlier ∈ before, ¬ earlier.IsBad) (hrow : row.IsBad) (after : List View.Row)
    (index : Nat) (store : Store) :
    updateFrom batch index store (before ++ row :: after) =
      (store.applyAll before, .error (row.fault batch (index + before.length))) := by
  induction before generalizing index store with
  | nil => rw [List.nil_append, updateFrom, entry_of_bad hrow]; rfl
  | cons first before ih =>
    obtain ⟨id, hid, hentry⟩ := entry_of_good (hbefore first (by simp)) batch index
    rw [List.cons_append, updateFrom, hentry, applyAll_cons, applyRow, hid]
    have hrest := ih (fun earlier hearlier => hbefore earlier (List.mem_cons_of_mem _ hearlier))
      (index + 1) (store.update id first.record)
    rw [show index + (first :: before).length = index + 1 + before.length by
      rw [List.length_cons]; omega]
    exact hrest

/-! ## The first bad row -/

/-- The rows have a first bad row, and the fault is what it is reported with. -/
def FirstFault (batch : String) (rows : List View.Row) (fault : Fault) : Prop :=
  ∃ before row after, rows = before ++ row :: after ∧ (∀ earlier ∈ before, ¬ earlier.IsBad) ∧
    row.IsBad ∧ fault = row.fault batch before.length

/-- Rows appended at the end do not change the first fault. -/
theorem FirstFault.append {batch : String} {rows : List View.Row} {fault : Fault}
    (h : FirstFault batch rows fault) (later : List View.Row) :
    FirstFault batch (rows ++ later) fault := by
  obtain ⟨before, row, after, rfl, hbefore, hrow, hfault⟩ := h
  exact ⟨before, row, after ++ later, by simp, hbefore, hrow, hfault⟩

theorem FirstFault.exists_bad {batch : String} {rows : List View.Row} {fault : Fault}
    (h : FirstFault batch rows fault) : ∃ row ∈ rows, row.IsBad := by
  obtain ⟨before, row, after, rfl, -, hrow, -⟩ := h
  exact ⟨row, by simp, hrow⟩

/-- Either no row is bad, or there is a first bad row. -/
theorem good_or_firstFault (batch : String) (rows : List View.Row) :
    (∀ row ∈ rows, ¬ row.IsBad) ∨ ∃ fault, FirstFault batch rows fault := by
  induction rows using List.reverseRecOn with
  | nil => exact Or.inl (by simp)
  | append_singleton rows row ih =>
    rcases ih with hgood | ⟨fault, hfault⟩
    · by_cases hrow : row.IsBad
      · exact Or.inr ⟨_, rows, row, [], rfl, hgood, hrow, rfl⟩
      · refine Or.inl fun other hother => ?_
        rcases List.mem_append.1 hother with hmem | hmem
        · exact hgood other hmem
        · rwa [List.mem_singleton.1 hmem]
    · exact Or.inr ⟨fault, hfault.append [row]⟩

theorem updateBulk_of_good {rows : List View.Row} (h : ∀ row ∈ rows, ¬ row.IsBad) (store : Store)
    (batch : String) : store.updateBulk batch rows = (store.applyAll rows, .ok ()) :=
  updateFrom_of_good batch h 0 store

theorem updateBulk_of_firstFault {batch : String} {rows : List View.Row} {fault : Fault}
    (h : FirstFault batch rows fault) (store : Store) :
    (store.updateBulk batch rows).2 = .error fault := by
  obtain ⟨before, row, after, rfl, hbefore, hrow, rfl⟩ := h
  rw [updateBulk, updateFrom_of_bad batch hbefore hrow after 0 store, Nat.zero_add]

/-- A batch has succeeded exactly if none of its rows is bad, and has applied them all. -/
theorem updateBulk_eq_ok_iff {store reached : Store} {batch : String} {rows : List View.Row} :
    store.updateBulk batch rows = (reached, .ok ()) ↔
      (∀ row ∈ rows, ¬ row.IsBad) ∧ reached = store.applyAll rows := by
  constructor
  · intro h
    rcases good_or_firstFault batch rows with hgood | ⟨fault, hfault⟩
    · rw [updateBulk_of_good hgood] at h
      exact ⟨hgood, (congrArg Prod.fst h).symm⟩
    · have hfails := updateBulk_of_firstFault hfault store
      rw [h] at hfails
      exact absurd hfails (by simp)
  · rintro ⟨hgood, rfl⟩
    exact updateBulk_of_good hgood store batch

/-! ## Two batches -/

/-- The fault that two batches are refused with: the first fault of the registry batch, or, if that
has none, the first fault of the agent batch. -/
def MergeFault (primary secondary : List View.Row) (fault : Fault) : Prop :=
  FirstFault primaryBatch primary fault ∨
    (∀ row ∈ primary, ¬ row.IsBad) ∧ FirstFault secondaryBatch secondary fault

theorem MergeFault.exists_bad {primary secondary : List View.Row} {fault : Fault}
    (h : MergeFault primary secondary fault) : ∃ row ∈ primary ++ secondary, row.IsBad := by
  rcases h with hfirst | ⟨-, hfirst⟩
  · obtain ⟨row, hmem, hbad⟩ := hfirst.exists_bad
    exact ⟨row, List.mem_append_left _ hmem, hbad⟩
  · obtain ⟨row, hmem, hbad⟩ := hfirst.exists_bad
    exact ⟨row, List.mem_append_right _ hmem, hbad⟩

/-- Either no row of the two batches is bad, or they have a fault. -/
theorem good_or_mergeFault (primary secondary : List View.Row) :
    (∀ row ∈ primary ++ secondary, ¬ row.IsBad) ∨ ∃ fault, MergeFault primary secondary fault := by
  rcases good_or_firstFault primaryBatch primary with hprimary | ⟨fault, hfault⟩
  · rcases good_or_firstFault secondaryBatch secondary with hsecondary | ⟨fault, hfault⟩
    · refine Or.inl fun row hrow => ?_
      rcases List.mem_append.1 hrow with hmem | hmem
      · exact hprimary row hmem
      · exact hsecondary row hmem
    · exact Or.inr ⟨fault, Or.inr ⟨hprimary, hfault⟩⟩
  · exact Or.inr ⟨fault, Or.inl hfault⟩

theorem merge_of_good {primary secondary : List View.Row}
    (h : ∀ row ∈ primary ++ secondary, ¬ row.IsBad) :
    merge primary secondary = .ok ((∅ : Store).applyAll (primary ++ secondary)) := by
  have hprimary := updateBulk_of_good (fun row hrow => h row (List.mem_append_left _ hrow)) empty
    primaryBatch
  have hsecondary := updateBulk_of_good (fun row hrow => h row (List.mem_append_right _ hrow))
    (empty.applyAll primary) secondaryBatch
  rw [merge, hprimary]
  simp only [hsecondary, applyAll_append]
  rfl

theorem merge_of_mergeFault {primary secondary : List View.Row} {fault : Fault}
    (h : MergeFault primary secondary fault) : merge primary secondary = .error fault := by
  rcases h with hfirst | ⟨hprimary, hfirst⟩
  · rw [merge]
    simp only [updateBulk_of_firstFault hfirst]
    rfl
  · rw [merge, updateBulk_of_good hprimary]
    simp only [updateBulk_of_firstFault hfirst]
    rfl

/-- **Two batches merge exactly when neither holds a bad row**, and the merged store is the run of
updates over the first and then the second. -/
theorem merge_eq_ok_iff {primary secondary : List View.Row} {store : Store} :
    merge primary secondary = .ok store ↔
      (∀ row ∈ primary ++ secondary, ¬ row.IsBad) ∧
        store = (∅ : Store).applyAll (primary ++ secondary) := by
  constructor
  · intro h
    rcases good_or_mergeFault primary secondary with hgood | ⟨fault, hfault⟩
    · rw [merge_of_good hgood] at h
      exact ⟨hgood, (Except.ok.inj h).symm⟩
    · rw [merge_of_mergeFault hfault] at h
      exact absurd h (by simp)
  · rintro ⟨hgood, rfl⟩
    exact merge_of_good hgood

theorem merge_eq_error_iff {primary secondary : List View.Row} {fault : Fault} :
    merge primary secondary = .error fault ↔ MergeFault primary secondary fault := by
  refine ⟨fun h => ?_, merge_of_mergeFault⟩
  rcases good_or_mergeFault primary secondary with hgood | ⟨first, hfirst⟩
  · rw [merge_of_good hgood] at h
    exact absurd h (by simp)
  · rw [merge_of_mergeFault hfirst] at h
    exact Except.error.inj h ▸ hfirst

/-- **The first bad row is the one that is reported.**  A merge fails exactly when a row of either
batch is bad.  The fault is that of the first bad row, the registry batch before the agent batch, with
the name of its own batch and its own position in it; whatever rows come later do not change it. -/
theorem merge_reports_first_bad (primary secondary : List View.Row) :
    ((∃ fault, merge primary secondary = .error fault) ↔
      ∃ row ∈ primary ++ secondary, row.IsBad) ∧
    (∀ fault, merge primary secondary = .error fault ↔
      FirstFault "primary" primary fault ∨
        (∀ row ∈ primary, ¬ row.IsBad) ∧ FirstFault "secondary" secondary fault) ∧
    (∀ fault, FirstFault "primary" primary fault →
      ∀ later other, merge (primary ++ later) other = .error fault) ∧
    ∀ fault, (∀ row ∈ primary, ¬ row.IsBad) → FirstFault "secondary" secondary fault →
      ∀ later, merge primary (secondary ++ later) = .error fault := by
  refine ⟨⟨?_, ?_⟩, fun fault => merge_eq_error_iff, ?_, ?_⟩
  · rintro ⟨fault, h⟩
    exact (merge_eq_error_iff.1 h).exists_bad
  · rintro ⟨row, hmem, hbad⟩
    cases h : merge primary secondary with
    | error fault => exact ⟨fault, rfl⟩
    | ok store => exact absurd hbad ((merge_eq_ok_iff.1 h).1 row hmem)
  · intro fault h later other
    exact merge_of_mergeFault (Or.inl (h.append later))
  · intro fault hprimary h later
    exact merge_of_mergeFault (Or.inr ⟨hprimary, h.append later⟩)

/-- A row without an id is reported as such, whatever its document is. -/
example : merge [.document "a" .null] [.document "b" .null, { doc := some (.bool true) }] =
    .error (.missingIdentifier "secondary" 1) := rfl

end RequestBoard.Store
