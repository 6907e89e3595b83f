import RequestBoard.Cycles

/-!
# A cycle by itself

* `Cycles.latest_publish`, `fst_publish`, `issued_publish` — what offering a table does to the shared state.
* `Cycles.run_of_ok`, `run_of_error` — **all that a cycle can come to**: it takes a generation, and then
  publishes the table that it has loaded, or leaves things as they are.
-/

namespace RequestBoard.Cycles

/-! ## Publishing -/

theorem latest_publish (cycles : Cycles) (published : Published) :
    (cycles.publish published).2.latest =
      match cycles.latest with
      | none => some published
      | some current =>
        if current.generation ≤ published.generation then some published else some current := by
  unfold publish accepts
  cases hlatest : cycles.latest with
  | none => simp
  | some current =>
    by_cases hle : current.generation ≤ published.generation
    · simp [hle]
    · simp [hle, hlatest]

/-- An offer is answered by whether its generation is accepted. -/
theorem fst_publish (cycles : Cycles) (published : Published) :
    (cycles.publish published).1 = cycles.accepts published.generation := by
  unfold publish
  cases cycles.accepts published.generation <;> rfl

@[simp] theorem issued_publish (cycles : Cycles) (published : Published) :
    (cycles.publish published).2.issued = cycles.issued := by
  unfold publish
  split <;> rfl

/-! ## A whole cycle -/

variable {σ : Type} {views : ViewNames} {source : Source σ} {state later : σ}

/-- A cycle that has loaded a table ends with it, under the generation that it took. -/
theorem run_of_ok {table : Table} (h : load views source state = (.ok table, later))
    (cycles : Cycles) :
    cycles.run views source state =
      (.ok ⟨cycles.begin.1, table⟩, (cycles.begin.2.publish ⟨cycles.begin.1, table⟩).2, later) := by
  rw [run, h]

/-- A cycle that has failed has used up its generation, and nothing else. -/
theorem run_of_error {fault : Fault} (h : load views source state = (.error fault, later))
    (cycles : Cycles) :
    cycles.run views source state = (.error fault, cycles.begin.2, later) := by
  rw [run, h]

end RequestBoard.Cycles
