import RequestBoard.Proofs.Counter.Formula
import RequestBoard.Proofs.Number.Whole
import RequestBoard.Proofs.Record.Compose

/-!
# Operands

An operand of a counter counts if its path leads to a number other than zero, and then it counts as that
number.  Anything else that may stand at the end of the path, and nothing at all, comes to the same: the
operand is idle, and its fallback counts.

* `Number.IsNonzero`, `Json.isTruthy_number_iff` — a number is present iff it is not zero.
* `Record.Idle`, `Record.idle_or_reaches` — an operand is idle, or it has a number.
* `Record.resolveNumber_of_idle`, `Record.resolveNumber_of_reaches` — what an operand counts as.
* `Counter.isNaN_eval` — **no counter is ever NaN**.
* `Counter.divisor_is_never_zero` — **no counter divides by zero**.
-/

namespace RequestBoard

/-! ## Numbers other than zero -/

/-- The number is not zero; a binary64 is zero with either sign. -/
def Number.IsNonzero : Number → Prop
  | .whole n _ => n ≠ 0
  | .float x _ => (x == 0) = false

instance : DecidablePred Number.IsNonzero
  | .whole n _ => inferInstanceAs (Decidable (n ≠ 0))
  | .float x _ => inferInstanceAs (Decidable ((x == 0) = false))

/-- The value is a number other than zero. -/
def Json.IsNonzeroNumber : Json → Prop
  | .number n => n.IsNonzero
  | _ => False

instance : DecidablePred Json.IsNonzeroNumber
  | .number n => inferInstanceAs (Decidable n.IsNonzero)
  | .null | .bool _ | .string _ | .array _ | .object _ => .isFalse id

theorem Number.isFinite_toFloat (n : Number) : n.toFloat.isFinite = true := by
  cases n with
  | whole n fits => exact Number.isFinite_nearestFloat fits
  | float x finite => exact finite

theorem Number.beq_zero_eq_false_iff {n : Number} : (n.toFloat == 0) = false ↔ n.IsNonzero := by
  cases n with
  | whole n fits =>
    rw [← Bool.not_eq_true]
    exact not_congr (Number.nearestFloat_beq_zero_iff fits)
  | float x finite => exact Iff.rfl

/-- **A number counts as present iff it is not zero.** -/
theorem Json.isTruthy_number_iff {n : Number} : (Json.number n).isTruthy = true ↔ n.IsNonzero := by
  rw [Json.isTruthy, Binary64.isNaN_of_isFinite n.isFinite_toFloat, Bool.not_false, Bool.and_true,
    Bool.not_eq_true', Number.beq_zero_eq_false_iff]

/-! ## What an operand counts as -/

namespace Record

/-- The path does not lead to a number other than zero. -/
def Idle (record : Record) (path : String) : Prop :=
  ∀ value, record.Reaches path value → ¬ value.IsNonzeroNumber

theorem idle_or_reaches (record : Record) (path : String) :
    record.Idle path ∨ ∃ n : Number, record.Reaches path (.number n) ∧ n.IsNonzero := by
  by_cases h : ∃ n : Number, record.Reaches path (.number n) ∧ n.IsNonzero
  · exact Or.inr h
  · refine Or.inl fun value hvalue hnonzero => ?_
    cases value with
    | number n => exact h ⟨n, hvalue, hnonzero⟩
    | null | bool | string | array | object => exact hnonzero

/-- A path of a single name leads to the field of that name. -/
theorem reaches_name_iff {record : Record} {name : String} {value : Json} (hname : '.' ∉ name.toList) :
    record.Reaches name value ↔ record[name]? = some value := by
  rw [Reaches, Path.stretches_of_not_mem hname, ← child?_toJson]
  constructor
  · rintro (_ | ⟨hchild, ⟨⟩⟩)
    exact Json.child?_eq_some_iff.2 hchild
  · exact fun h => .down (Json.child?_eq_some_iff.1 h) .here

theorem resolveNumber_of_reaches {record : Record} {path : String} {n : Number}
    (h : record.Reaches path (.number n)) (hn : n.IsNonzero) (fallback : Float) :
    record.resolveNumber path fallback = n.toFloat := by
  have hfollow := follow?_stretches_eq_some_iff.2 ⟨h, Json.isTruthy_number_iff.2 hn⟩
  rw [resolveNumber, resolve_eq_follow?, hfollow]
  rfl

theorem resolveNumber_of_idle {record : Record} {path : String} (h : record.Idle path)
    (fallback : Float) : record.resolveNumber path fallback = fallback := by
  rw [resolveNumber, resolve_eq_follow?]
  cases hfollow : record.toJson.follow? (Path.stretches path) with
  | none => rfl
  | some value =>
    obtain ⟨hvalue, htruthy⟩ := follow?_stretches_eq_some_iff.1 hfollow
    cases value with
    | number n => exact absurd (Json.isTruthy_number_iff.1 htruthy) (h _ hvalue)
    | null | bool | string | array | object => rfl

/-- What is found at the end of a path is what the path leads to. -/
theorem reaches_of_resolve {record : Record} {path : String} {value : Json}
    (h : record.resolve path .null = value) (hvalue : value ≠ .null) : record.Reaches path value := by
  rw [resolve_eq_follow?] at h
  cases hfollow : record.toJson.follow? (Path.stretches path) with
  | none =>
    rw [hfollow] at h
    exact absurd h.symm hvalue
  | some found =>
    rw [hfollow] at h
    subst h
    exact (follow?_stretches_eq_some_iff.1 hfollow).1

/-- Whether an operand is idle can be seen from what is looked up. -/
theorem idle_iff {record : Record} {path : String} :
    record.Idle path ↔ ¬ (record.resolve path .null).IsNonzeroNumber := by
  constructor
  · intro h hnonzero
    rw [resolve_eq_follow?] at hnonzero
    cases hfollow : record.toJson.follow? (Path.stretches path) with
    | none =>
      rw [hfollow] at hnonzero
      exact hnonzero
    | some value =>
      rw [hfollow] at hnonzero
      exact h value (follow?_stretches_eq_some_iff.1 hfollow).1 hnonzero
  · rcases record.idle_or_reaches path with hidle | ⟨n, hn, hnonzero⟩
    · exact fun _ => hidle
    · have hfollow := follow?_stretches_eq_some_iff.2 ⟨hn, Json.isTruthy_number_iff.2 hnonzero⟩
      rw [resolve_eq_follow?, hfollow]
      exact fun h => absurd hnonzero h

instance (record : Record) (path : String) : Decidable (record.Idle path) :=
  decidable_of_iff _ idle_iff.symm

/-- A number that is found is finite. -/
theorem isFinite_resolveNumber (record : Record) (path : String) {fallback : Float}
    (h : fallback.isFinite = true) : (record.resolveNumber path fallback).isFinite = true := by
  rcases record.idle_or_reaches path with hidle | ⟨n, hn, hnonzero⟩
  · rwa [resolveNumber_of_idle hidle]
  · rw [resolveNumber_of_reaches hn hnonzero]
    exact n.isFinite_toFloat

/-- A number that is found is not zero. -/
theorem resolveNumber_beq_zero (record : Record) (path : String) {fallback : Float}
    (h : (fallback == 0) = false) : (record.resolveNumber path fallback == 0) = false := by
  rcases record.idle_or_reaches path with hidle | ⟨n, hn, hnonzero⟩
  · rwa [resolveNumber_of_idle hidle]
  · rw [resolveNumber_of_reaches hn hnonzero]
    exact Number.beq_zero_eq_false_iff.2 hnonzero

end Record

/-! ## No counter is NaN -/

/-- Adding up finite numbers may overflow, but it does not give NaN. -/
theorem Binary64.isNaN_foldl_add {xs : List Float} (hxs : ∀ x ∈ xs, x.isFinite = true) {start : Float}
    (hstart : start.isNaN = false) : (xs.foldl (· + ·) start).isNaN = false := by
  induction xs generalizing start with
  | nil => exact hstart
  | cons x xs ih =>
    have hx : x.isFinite = true := hxs x List.mem_cons_self
    exact ih (fun y hy => hxs y (List.mem_cons_of_mem x hy)) (isNaN_add hstart hx)

theorem Formula.isNaN_eval_sum (paths : List String) (record : Record) :
    ((Formula.sum paths).eval record).isNaN = false := by
  have hzero : (0 : Float).isFinite = true := by decide
  refine Binary64.isNaN_foldl_add (fun x hx => ?_) (by decide)
  obtain ⟨path, -, rfl⟩ := List.mem_map.1 hx
  exact record.isFinite_resolveNumber path hzero

namespace Counter

/-- **No counter is ever NaN**: a sum of finite numbers is not, and a quotient of them is not because its
divisor is not zero. -/
theorem isNaN_eval (counter : Counter) (record : Record) : (counter.eval record).isNaN = false := by
  by_cases hcounter : counter = queueInjection
  · subst hcounter
    exact Binary64.isNaN_div (record.isFinite_resolveNumber _ (by decide))
      (record.isFinite_resolveNumber _ (by decide)) (record.resolveNumber_beq_zero _ (by decide))
  · obtain ⟨paths, hformula⟩ := exists_formula_eq_sum hcounter
    rw [eval, hformula]
    exact Formula.isNaN_eval_sum paths record

/-- **No counter divides by zero.**  A number that is looked up is the fallback, or it has been found at
the end of the path and is neither zero nor NaN.  So the number by which the queue injection is divided,
which is that of `total_jobs` if there is one other than zero and else one, is neither zero nor NaN
whatever stands there, and the quotient is not NaN either. -/
theorem divisor_is_never_zero (record : Record) :
    (∀ path fallback, record.Idle path ∧ record.resolveNumber path fallback = fallback ∨
      ∃ n : Number, record.Reaches path (.number n) ∧ record.resolveNumber path fallback = n.toFloat ∧
        (n.toFloat == 0) = false ∧ n.toFloat.isNaN = false) ∧
    let divisor := record.resolveNumber "total_jobs" 1
    queueInjection.eval record = record.resolveNumber "status.inWMBS" 0 / divisor ∧
      (divisor == 0) = false ∧ divisor.isNaN = false ∧
      ((∃ n : Number, record["total_jobs"]? = some (.number n) ∧ n.IsNonzero ∧ divisor = n.toFloat) ∨
        (¬ ∃ n : Number, record["total_jobs"]? = some (.number n) ∧ n.IsNonzero) ∧ divisor = 1) ∧
      (queueInjection.eval record).isNaN = false := by
  have hfound : ∀ n : Number, n.IsNonzero → (n.toFloat == 0) = false ∧ n.toFloat.isNaN = false :=
    fun n hn => ⟨Number.beq_zero_eq_false_iff.2 hn, Binary64.isNaN_of_isFinite n.isFinite_toFloat⟩
  have hname : '.' ∉ "total_jobs".toList := by decide
  refine ⟨fun path fallback => ?_, rfl, ?_, ?_, ?_, ?_⟩
  · rcases record.idle_or_reaches path with hidle | ⟨n, hn, hnonzero⟩
    · exact Or.inl ⟨hidle, Record.resolveNumber_of_idle hidle fallback⟩
    · exact Or.inr ⟨n, hn, Record.resolveNumber_of_reaches hn hnonzero fallback, hfound n hnonzero⟩
  · exact record.resolveNumber_beq_zero "total_jobs" (by decide)
  · exact Binary64.isNaN_of_isFinite (record.isFinite_resolveNumber "total_jobs" (by decide))
  · rcases record.idle_or_reaches "total_jobs" with hidle | ⟨n, hn, hnonzero⟩
    · refine Or.inr ⟨?_, Record.resolveNumber_of_idle hidle 1⟩
      rintro ⟨n, hn, hnonzero⟩
      exact hidle _ ((Record.reaches_name_iff hname).2 hn) hnonzero
    · exact Or.inl ⟨n, (Record.reaches_name_iff hname).1 hn, hnonzero,
        Record.resolveNumber_of_reaches hn hnonzero 1⟩
  · exact isNaN_eval queueInjection record

/-- The divisor of a record whose `total_jobs` is a negative zero is one. -/
example : Record.resolveNumber (Json.membersOf [("total_jobs", .number (.float (-0.0) (by decide)))])
    "total_jobs" 1 = 1 := by decide

end Counter

end RequestBoard
