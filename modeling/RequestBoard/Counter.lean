import RequestBoard.Record.Path

/-!
# Status counters

Each counter is a fixed sum or ratio of numbers found below a record.  Every operand is looked up on
its own and has its own fallback, so that a missing or zero value only takes away that operand.
-/

namespace RequestBoard

/-- A number below a record, and what counts when there is none. -/
structure Operand where
  path : String
  fallback : Float

/-- How a counter combines its operands. -/
inductive Formula where
  /-- The sum of the numbers at the paths, each zero when there is none. -/
  | sum (paths : List String)
  /-- The quotient of two operands. -/
  | ratio (numerator denominator : Operand)

/-- The number that an operand stands for in a record. -/
def Operand.eval (operand : Operand) (record : Record) : Float :=
  Record.resolveNumber record operand.path operand.fallback

/-- The value of a formula for a record; sums run from left to right, and nothing is rounded beyond
what each binary64 operation rounds. -/
def Formula.eval (record : Record) : Formula → Float
  | .sum paths => (paths.map fun path => Operand.eval ⟨path, 0⟩ record).foldl (· + ·) 0
  | .ratio numerator denominator => numerator.eval record / denominator.eval record

/-- The status counters of a request. -/
inductive Counter where
  | queued | pending | running | failure | canceled | success | coolOff | preCooloff
  | queueInjection
  deriving DecidableEq, Repr

namespace Counter

/-- All counters in the order of their columns. -/
def all : List Counter :=
  [queued, pending, running, failure, canceled, success, coolOff, preCooloff, queueInjection]

/-- The key of the counter's column. -/
def key : Counter → String
  | queued => "queued"
  | pending => "pending"
  | running => "running"
  | failure => "failure"
  | canceled => "canceled"
  | success => "success"
  | coolOff => "cool_off"
  | preCooloff => "pre_cooloff"
  | queueInjection => "queue_injection"

/-- The title of the counter's column. -/
def title : Counter → String
  | coolOff => "cool off"
  | preCooloff => "pre-cooloff"
  | queueInjection => "queue injection"
  | counter => counter.key

/-- How the counter is computed. -/
def formula : Counter → Formula
  | queued => .sum ["status.queued.first", "status.queued.retry"]
  | pending => .sum ["status.submitted.pending"]
  | running => .sum ["status.submitted.running"]
  | failure =>
    .sum ["status.failure.create", "status.failure.submit", "status.failure.exception"]
  | canceled => .sum ["status.canceled"]
  | success => .sum ["status.success"]
  | coolOff => .sum ["status.cooloff"]
  | preCooloff => .sum ["status.submitted.retry", "status.queued.retry"]
  | queueInjection => .ratio ⟨"status.inWMBS", 0⟩ ⟨"total_jobs", 1⟩

/-- The value of the counter for a record. -/
def eval (counter : Counter) (record : Record) : Float := counter.formula.eval record

end Counter

/-- The values of all counters for one record. -/
structure Counters where
  queued : Float
  pending : Float
  running : Float
  failure : Float
  canceled : Float
  success : Float
  coolOff : Float
  preCooloff : Float
  queueInjection : Float

namespace Counters

/-- The counters of a record. -/
def ofRecord (record : Record) : Counters where
  queued := Counter.queued.eval record
  pending := Counter.pending.eval record
  running := Counter.running.eval record
  failure := Counter.failure.eval record
  canceled := Counter.canceled.eval record
  success := Counter.success.eval record
  coolOff := Counter.coolOff.eval record
  preCooloff := Counter.preCooloff.eval record
  queueInjection := Counter.queueInjection.eval record

/-- The values, one after the other. -/
def toList (counters : Counters) : List Float := [
  counters.queued,
  counters.pending,
  counters.running,
  counters.failure,
  counters.canceled,
  counters.success,
  counters.coolOff,
  counters.preCooloff,
  counters.queueInjection]

end Counters

end RequestBoard
