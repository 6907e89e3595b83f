import RequestBoard.Proofs.Store.Compaction

/-!
# Applying rows again changes nothing

While a batch is applied for a second time, old values come back: an early row writes its own value over
that of a later one.  By the end of the batch the later row has put it right.  So it takes the whole rest
of a batch, from wherever it is begun, for the store to be what it was.

* `View.distinctIds_append_of_subset`, `lastValue?_append_of_suffix` — the last rows, said again, add no id
  and have no new last word.
* `Holds.append_of_suffix` — a store that holds rows holds them with their last ones repeated.
* `Holds.applyAll_of_suffix` — **and so it is left as it is by these**.
* `replay_changes_nothing` — the result, for batches that follow any calls.
-/

namespace RequestBoard

/-! ## Rows said again -/

namespace View

/-- Rows that were there before bring no new id. -/
theorem distinctIds_append_of_subset {rows again : List Row} (h : again ⊆ rows) :
    distinctIds (rows ++ again) = distinctIds rows := by
  have hids : again.filterMap (·.id) ⊆ rows.filterMap (·.id) := List.filterMap_subset _ h
  have hnone : (again.filterMap (·.id)).removeAll (rows.filterMap (·.id)) = [] := by
    refine List.filter_eq_nil_iff.2 fun id hid => ?_
    simpa using hids hid
  rw [distinctIds, List.filterMap_append, List.eraseDups_append, hnone, List.eraseDups_nil,
    List.append_nil, distinctIds]

/-- The last rows, said again, have no new last word: of what they write, theirs is the last word
already. -/
theorem lastValue?_append_of_suffix {rows again : List Row} (h : again <:+ rows) (id field : String) :
    lastValue? (rows ++ again) id field = lastValue? rows id field := by
  obtain ⟨before, rfl⟩ := h
  rw [lastValue?_append, lastValue?_append]
  cases lastValue? again id field with
  | none => rfl
  | some value => rfl

/-- The first rows, said again, can have one. -/
example :
    lastValue? [.document "a" (.object [("x", .bool false)]), .document "a" (.object [("x", .null)]),
      .document "a" (.object [("x", .bool false)])] "a" "x" = some (.bool false) ∧
    lastValue? [.document "a" (.object [("x", .bool false)]), .document "a" (.object [("x", .null)])]
      "a" "x" = some .null := ⟨rfl, rfl⟩

end View

namespace Store

/-! ## Rows applied again -/

theorem Holds.append_of_suffix {store : Store} {rows again : List View.Row} (h : Holds store rows)
    (hagain : again <:+ rows) : Holds store (rows ++ again) where
  ids_eq := by rw [View.distinctIds_append_of_subset hagain.subset, h.ids_eq]
  isSome_get? := h.isSome_get?
  field_eq id field := by rw [View.lastValue?_append_of_suffix hagain, h.field_eq]

/-- **The last rows of a store, applied again, leave it as it is.** -/
theorem Holds.applyAll_of_suffix {store : Store} {rows again : List View.Row} (h : Holds store rows)
    (hagain : again <:+ rows) : store.applyAll again = store :=
  (h.applyAll again).unique (h.append_of_suffix hagain)

/-- Rows that are applied to a store in step leave it as it is from then on. -/
theorem InStep.applyAll_of_suffix {store : Store} (h : store.InStep) {rows again : List View.Row}
    (hagain : again <:+ rows) : (store.applyAll rows).applyAll again = store.applyAll rows :=
  (h.holds_toRows.applyAll rows).applyAll_of_suffix (hagain.trans (List.suffix_append ..))

/-! ## Batches applied again -/

/-- The last rows of an agent batch may be sent again after it. -/
theorem merge_append_of_suffix (primary : List View.Row) {secondary again : List View.Row}
    (hagain : again <:+ secondary) : merge primary (secondary ++ again) = merge primary secondary := by
  rcases good_or_mergeFault primary secondary with hgood | ⟨fault, hfault⟩
  · have hall : ∀ row ∈ primary ++ (secondary ++ again), ¬ row.IsBad := by
      intro row hrow
      rw [← List.append_assoc, List.mem_append] at hrow
      exact hrow.elim (hgood row) fun hmem => hgood row (List.mem_append_right _ (hagain.subset hmem))
    have hholds : Holds _ (primary ++ secondary) := holds_empty.applyAll (primary ++ secondary)
    rw [merge_of_good hall, merge_of_good hgood, ← List.append_assoc, applyAll_append,
      hholds.applyAll_of_suffix (hagain.trans (List.suffix_append ..))]
  -- a batch that fails does not get to the rows after its first bad one
  · have hlater : MergeFault primary (secondary ++ again) fault :=
      hfault.imp_right fun ⟨hprimary, hfirst⟩ => ⟨hprimary, hfirst.append again⟩
    rw [merge_of_mergeFault hfault, merge_of_mergeFault hlater]

/-- **Applying rows again changes nothing.**  Take any store that calls have made, and a batch that is
applied to it with success.  Applying that batch again, or its last rows from anywhere on, succeeds and
leaves the store exactly as it is.  So an agent batch that is repeated at its end, in whole or from
anywhere on, merges like the batch itself. -/
theorem replay_changes_nothing :
    (∀ calls batch rows reached, (ofCalls calls).updateBulk batch rows = (reached, .ok ()) →
      ∀ name again, again <:+ rows → reached.updateBulk name again = (reached, .ok ())) ∧
    ∀ primary secondary again, again <:+ secondary →
      merge primary (secondary ++ again) = merge primary secondary := by
  refine ⟨?_, fun primary secondary again hagain => merge_append_of_suffix primary hagain⟩
  intro calls batch rows reached h name again hagain
  obtain ⟨hgood, rfl⟩ := updateBulk_eq_ok_iff.1 h
  refine updateBulk_eq_ok_iff.2 ⟨fun row hrow => hgood row (hagain.subset hrow), ?_⟩
  exact ((inStep_ofCalls calls).applyAll_of_suffix hagain).symm

/-- The second row overwrites the first one, and a record was there before; the batch may be applied again
from its first or from its second row on. -/
theorem replay_changes_nothing_of_overwritten :
    ∃ reached,
      (ofCalls [.update "a" ∅]).updateBulk "primary"
        [.document "a" (.object [("x", .bool false)]), .document "a" (.object [("x", .bool true)]),
          .document "b" .null] = (reached, .ok ()) ∧
      reached.updateBulk "again"
        [.document "a" (.object [("x", .bool false)]), .document "a" (.object [("x", .bool true)]),
          .document "b" .null] = (reached, .ok ()) ∧
      reached.updateBulk "again"
        [.document "a" (.object [("x", .bool true)]), .document "b" .null] = (reached, .ok ()) ∧
      merge [] ([.document "a" (.object [("x", .bool false)]), .document "a" .null] ++
          [.document "a" (.object [("x", .bool false)]), .document "a" .null]) =
        merge [] [.document "a" (.object [("x", .bool false)]), .document "a" .null] := by
  have hbatch : (ofCalls [.update "a" ∅]).updateBulk "primary"
      [.document "a" (.object [("x", .bool false)]), .document "a" (.object [("x", .bool true)]),
        .document "b" .null] =
      (((ofCalls [.update "a" ∅]).updateBulk "primary"
        [.document "a" (.object [("x", .bool false)]), .document "a" (.object [("x", .bool true)]),
          .document "b" .null]).1, .ok ()) := rfl
  have hagain := replay_changes_nothing.1 _ _ _ _ hbatch "again"
  exact ⟨_, hbatch, hagain _ List.suffix_rfl, hagain _ (List.suffix_cons ..),
    replay_changes_nothing.2 [] _ _ List.suffix_rfl⟩

end Store

end RequestBoard
