import RequestBoard.Fetch
import RequestBoard.Table

/-!
# Render cycles

Every cycle takes the next generation when it begins and, if it succeeds, offers its table for
publication when it ends.  A table is published unless one of a later generation already is, so that
a slow cycle never replaces the result of a faster, later one; its own caller gets its table anyway.
-/

namespace RequestBoard

/-- A table with the generation of the cycle that made it. -/
structure Published where
  generation : UInt64
  table : Table

/-- The number of generations given out, and the table published last. -/
structure Cycles where
  issued : UInt64 := 0
  latest : Option Published := none

/-- The object form of a published table. -/
def Published.toJson (published : Published) : Json :=
  .object [
    ("columns", .array (published.table.columns.map Column.toJson)),
    ("generation", .ofNat published.generation.toNat),
    ("rows", .array (published.table.rows.map Table.Row.toJson))]

namespace Cycles

/-- Gives out the next generation; the first one is 1. -/
def begin (cycles : Cycles) : UInt64 × Cycles :=
  (cycles.issued + 1, { cycles with issued := cycles.issued + 1 })

/-- Whether a table of the given generation may be published. -/
def accepts (cycles : Cycles) (generation : UInt64) : Bool :=
  match cycles.latest with
  | none => true
  | some current => current.generation ≤ generation

/-- Publishes a table unless one of a later generation is published, and says whether it did. -/
def publish (cycles : Cycles) (published : Published) : Bool × Cycles :=
  if cycles.accepts published.generation then (true, { cycles with latest := some published })
  else (false, cycles)

/-- The table of fetched batches. -/
def tableOf (result : Except Fault Batches) : Except Fault Table :=
  result.bind fun batches => Table.ofBatches batches.registry batches.agent

/-- Fetches, merges and tabulates. -/
def load {σ : Type} (views : ViewNames) (source : Source σ) (state : σ) :
    Except Fault Table × σ :=
  let (result, state) := Fetch.run views source state
  (tableOf result, state)

/-- Runs one cycle from beginning to end: takes a generation, loads a table and offers it for
publication. -/
def run {σ : Type} (views : ViewNames) (source : Source σ) (cycles : Cycles) (state : σ) :
    Except Fault Published × Cycles × σ :=
  let (generation, cycles) := cycles.begin
  match load views source state with
  | (.ok table, state) =>
    let published : Published := ⟨generation, table⟩
    (.ok published, (cycles.publish published).2, state)
  | (.error fault, state) => (.error fault, cycles, state)

end Cycles

end RequestBoard
