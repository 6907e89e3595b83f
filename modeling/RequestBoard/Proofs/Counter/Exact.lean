import RequestBoard.Proofs.Counter.Operand
import RequestBoard.Proofs.Table.Lookup

/-!
# Counts are exact

A counter that is a sum is computed in binary64, from whole numbers that have been turned into binary64
and back into a whole number for its cell.  As long as the operands and all partial sums are at most
`2 ^ 53` in magnitude, nothing is lost on the way.

* `Record.Counts` — the whole number that an operand of a sum stands for.
* `Binary64.foldl_add_nearestFloat` — **adding up is exact** if no partial sum leaves the range.
* `Cell.ofFloat_nearestFloat` — the cell of a whole number is that number.
* `Counter.cell_is_exact_sum` — **the result**.
-/

namespace RequestBoard

/-! ## Adding up -/

/-- A partial sum of at most `2 ^ 53` in magnitude after each of the first terms. -/
def PartialSumsFit (start : Int) (counts : List Int) : Prop :=
  ∀ k, (start + (counts.take k).sum).natAbs ≤ 9007199254740992

theorem PartialSumsFit.start {start : Int} {counts : List Int} (h : PartialSumsFit start counts) :
    start.natAbs ≤ 9007199254740992 := by
  simpa using h 0

theorem PartialSumsFit.tail {start count : Int} {counts : List Int}
    (h : PartialSumsFit start (count :: counts)) : PartialSumsFit (start + count) counts := by
  intro k
  have hk := h (k + 1)
  rwa [List.take_succ_cons, List.sum_cons, ← Int.add_assoc] at hk

/-- **Adding up is exact.**  The invariant is that what has been added up so far is a partial sum. -/
theorem Binary64.foldl_add_nearestFloat {start : Int} {counts : List Int}
    (hcounts : ∀ count ∈ counts, count.natAbs ≤ 9007199254740992) (h : PartialSumsFit start counts) :
    (counts.map Number.nearestFloat).foldl (· + ·) (Number.nearestFloat start) =
      Number.nearestFloat (start + counts.sum) := by
  induction counts generalizing start with
  | nil => rw [List.map_nil, List.foldl_nil, List.sum_nil, Int.add_zero]
  | cons count counts ih =>
    have hcount := hcounts count List.mem_cons_self
    have hrest := ih (fun later hlater => hcounts later (List.mem_cons_of_mem count hlater)) h.tail
    rw [List.map_cons, List.foldl_cons, Number.nearestFloat_add h.start hcount, hrest, List.sum_cons,
      Int.add_assoc]

/-- The cell of a whole number is that number. -/
theorem Cell.ofFloat_nearestFloat {n : Int} (hn : n.natAbs ≤ 9007199254740992) :
    Cell.ofFloat (Number.nearestFloat n) = .number (.whole n (Number.fitsWord_of_natAbs_le hn)) := by
  rw [Cell.ofFloat, exactWhole?_nearestFloat hn]
  simp only [Json.ofInt, Number.ofInt?, Number.fitsWord_of_natAbs_le hn, dite_true]

/-! ## Operands of a sum -/

/-- The whole number that an operand of a sum stands for: the number of at most `2 ^ 53` in magnitude that
its path leads to, or zero if the operand is idle. -/
inductive Record.Counts (record : Record) (path : String) : Int → Prop where
  | whole {n : Int} {fits : FitsWord n} : record.Reaches path (.number (.whole n fits)) →
      n.natAbs ≤ 9007199254740992 → Counts record path n
  | idle : record.Idle path → Counts record path 0

theorem Record.Counts.natAbs_le {record : Record} {path : String} {n : Int} (h : record.Counts path n) :
    n.natAbs ≤ 9007199254740992 := by
  cases h with
  | whole _ hn => exact hn
  | idle _ => decide

theorem Record.Counts.eval {record : Record} {path : String} {n : Int} (h : record.Counts path n) :
    Operand.eval ⟨path, 0⟩ record = Number.nearestFloat n := by
  rw [Operand.eval, ← Number.nearestFloat_zero]
  cases h with
  | idle hidle => exact resolveNumber_of_idle hidle _
  | @whole _ fits hreaches _ =>
    rcases eq_or_ne n 0 with rfl | hn
    · refine resolveNumber_of_idle (fun value hvalue => ?_) _
      rw [hvalue.unique hreaches]
      exact fun hnonzero => hnonzero rfl
    · exact resolveNumber_of_reaches hreaches hn _

/-- The operands of a sum, looked up, are the whole numbers that they stand for. -/
theorem Record.map_eval_of_counts {record : Record} {paths : List String} {counts : List Int}
    (h : List.Forall₂ record.Counts paths counts) :
    (paths.map fun path => Operand.eval ⟨path, 0⟩ record) = counts.map Number.nearestFloat ∧
      ∀ count ∈ counts, count.natAbs ≤ 9007199254740992 := by
  induction h with
  | nil => exact ⟨rfl, by simp⟩
  | cons hfirst _ ih =>
    obtain ⟨hmap, hcounts⟩ := ih
    refine ⟨by rw [List.map_cons, List.map_cons, hfirst.eval, hmap], ?_⟩
    exact List.forall_mem_cons.2 ⟨hfirst.natAbs_le, hcounts⟩

/-- **A sum is the exact sum of what its operands stand for.** -/
theorem Formula.eval_sum_of_counts {record : Record} {paths : List String} {counts : List Int}
    (h : List.Forall₂ record.Counts paths counts) (hpartial : PartialSumsFit 0 counts) :
    (Formula.sum paths).eval record = Number.nearestFloat counts.sum := by
  obtain ⟨hmap, hcounts⟩ := Record.map_eval_of_counts h
  rw [Formula.eval, hmap, ← Number.nearestFloat_zero, Binary64.foldl_add_nearestFloat hcounts hpartial,
    Int.zero_add]

namespace Counter

/-- **Counts are exact.**  If the operands of a sum stand for whole numbers of at most `2 ^ 53` in
magnitude, missing and other idle operands for zero, and no partial sum is larger than that either, then
the cell of the counter is the exact sum as a whole number: not a float, not null, and not off by one. -/
theorem cell_is_exact_sum (id : String) (record : Record) {counter : Counter}
    (hcounter : counter ≠ queueInjection) {counts : List Int}
    (hcounts : List.Forall₂ (fun (operand : Operand) n => record.Counts operand.path n)
      counter.formula.operands counts)
    (hpartial : ∀ k, (counts.take k).sum.natAbs ≤ 9007199254740992) :
    ∃ fits, (Table.Row.ofRecord id record).cell? counter.key = some (.number (.whole counts.sum fits)) := by
  obtain ⟨paths, hformula⟩ := exists_formula_eq_sum hcounter
  have hpaths : List.Forall₂ record.Counts paths counts := by
    rwa [hformula, Formula.operands, List.forall₂_map_left_iff] at hcounts
  have hfits : PartialSumsFit 0 counts := by
    intro k
    rw [Int.zero_add]
    exact hpartial k
  have hsum : counts.sum.natAbs ≤ 9007199254740992 := by simpa using hpartial counts.length
  have heval : counter.eval record = Number.nearestFloat counts.sum := by
    rw [eval, hformula, Formula.eval_sum_of_counts hpaths hfits]
  refine ⟨Number.fitsWord_of_natAbs_le hsum, ?_⟩
  rw [Table.Row.cell?_of_counter, heval, Cell.ofFloat_nearestFloat hsum]

/-- At the edge of the range: `2 ^ 53`, a text that counts as nothing, and one less than nothing. -/
theorem cell_is_exact_sum_at_the_edge :
    let record : Record := Json.membersOf [("status", .object [("failure", .object
      [("create", .number (.whole 9007199254740992 (by decide))), ("submit", .string "n/a"),
        ("exception", .number (.whole (-1) (by decide)))])])]
    failure ≠ queueInjection ∧
      List.Forall₂ (fun (operand : Operand) n => record.Counts operand.path n)
        failure.formula.operands [9007199254740992, 0, -1] ∧
      (∀ k, (([9007199254740992, 0, -1] : List Int).take k).sum.natAbs ≤ 9007199254740992) ∧
      ∃ fits, (Table.Row.ofRecord "r" record).cell? "failure" =
        some (.number (.whole 9007199254740991 fits)) := by
  intro record
  have hcounter : failure ≠ queueInjection := by decide
  have hcreate : record.Counts "status.failure.create" 9007199254740992 :=
    .whole (Record.reaches_of_resolve rfl (by simp)) (by decide)
  have hsubmit : record.Counts "status.failure.submit" 0 := .idle (by decide)
  have hexception : record.Counts "status.failure.exception" (-1) :=
    .whole (Record.reaches_of_resolve rfl (by simp)) (by decide)
  have hcounts : List.Forall₂ (fun (operand : Operand) n => record.Counts operand.path n)
      failure.formula.operands [9007199254740992, 0, -1] :=
    .cons hcreate (.cons hsubmit (.cons hexception .nil))
  have hpartial : ∀ k, (([9007199254740992, 0, -1] : List Int).take k).sum.natAbs ≤ 9007199254740992
    | 0 | 1 | 2 => by decide
    | k + 3 => by
      rw [List.take_of_length_le (by simp)]
      decide
  exact ⟨hcounter, hcounts, hpartial, cell_is_exact_sum "r" record hcounter hcounts hpartial⟩

end Counter

end RequestBoard
