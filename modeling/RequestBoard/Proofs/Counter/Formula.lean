import RequestBoard.Counter

/-!
# Formulas and their operands

A counter is a formula, and a formula is computed from what its operands count as.  So whatever makes two
records agree on the operands, be it that they have the same fields or that they have the same at the end of
the paths, makes them agree on the counters.

* `Formula.operands`, `Formula.eval_congr_of_operands` — a formula is determined by its operands.
* `Counter.exists_formula_eq_sum` — every counter is a sum, but for one.
* `Counters.toList_ofRecord` — the values of a record stand in the order of the columns.
* `Counters.ofRecord_congr_of_eval` — records that agree on every counter have the same counters.
-/

namespace RequestBoard

/-- The operands of a formula. -/
def Formula.operands : Formula → List Operand
  | .sum paths => paths.map fun path => ⟨path, 0⟩
  | .ratio numerator denominator => [numerator, denominator]

/-- **The value of a formula is determined by the values of its operands.** -/
theorem Formula.eval_congr_of_operands {formula : Formula} {record other : Record}
    (h : ∀ operand ∈ formula.operands, operand.eval record = operand.eval other) :
    formula.eval record = formula.eval other := by
  cases formula with
  | sum paths =>
    have hpaths : ∀ path ∈ paths, Operand.eval ⟨path, 0⟩ record = Operand.eval ⟨path, 0⟩ other :=
      fun path hpath => h _ (List.mem_map.2 ⟨path, hpath, rfl⟩)
    rw [eval, eval, List.map_congr_left hpaths]
  | ratio numerator denominator =>
    have hnumerator := h numerator (by simp [operands])
    have hdenominator := h denominator (by simp [operands])
    rw [eval, eval, hnumerator, hdenominator]

namespace Counter

theorem mem_all (counter : Counter) : counter ∈ all := by cases counter <;> decide

/-- All counters but the queue injection are sums. -/
theorem exists_formula_eq_sum {counter : Counter} (h : counter ≠ queueInjection) :
    ∃ paths, counter.formula = .sum paths := by
  cases counter with
  | queueInjection => exact absurd rfl h
  | queued | pending | running | failure | canceled | success | coolOff | preCooloff => exact ⟨_, rfl⟩

end Counter

namespace Counters

/-- The values that are written out one by one are those of all counters, in the same order. -/
theorem toList_ofRecord (record : Record) :
    (ofRecord record).toList = Counter.all.map fun counter => counter.eval record := rfl

theorem ofRecord_congr_of_eval {record other : Record}
    (h : ∀ counter : Counter, counter.eval record = counter.eval other) :
    ofRecord record = ofRecord other := by
  simp only [ofRecord, h]

end Counters

end RequestBoard
