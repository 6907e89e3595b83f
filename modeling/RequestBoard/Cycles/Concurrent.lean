import RequestBoard.Cycles

/-!
# Cycles in flight

Several cycles may share one generation counter and one published table.  Each of them moves on only
when it is told to: it is started, it is given the answer to its question, it publishes the table that
it has loaded, or it is abandoned.  Any order of these moves of any number of cycles is possible; here
cycles are told apart by names.
-/

namespace RequestBoard

/-- How far a cycle has come. -/
inductive Phase where
  /-- It waits for an answer. -/
  | fetching (stage : Fetch.Stage)
  /-- It has a table that it has not offered yet. -/
  | loaded (table : Table)

/-- A cycle in flight. -/
structure Render where
  generation : UInt64
  views : ViewNames
  phase : Phase

/-- What a move has brought a cycle to. -/
inductive Progress where
  /-- It asks its next question. -/
  | waiting (ask : Ask)
  /-- It has a table to offer. -/
  | loaded
  /-- It has ended with its own table. -/
  | done (published : Published)
  /-- It has failed. -/
  | failed (fault : Fault)

/-- The shared state and the cycles in flight, by name. -/
structure Concurrent where
  cycles : Cycles := {}
  running : List (String × Render) := []

namespace Concurrent

/-- The cycle in flight under a name. -/
def find? (state : Concurrent) (name : String) : Option Render := state.running.lookup name

/-- Abandons the cycle in flight under a name, if there is one. -/
def abandon (state : Concurrent) (name : String) : Concurrent :=
  { state with running := state.running.filter (·.1 != name) }

/-- Puts a cycle under a name, in place of any other. -/
def put (state : Concurrent) (name : String) (render : Render) : Concurrent :=
  { state with running := (name, render) :: (state.abandon name).running }

/-- Starts a cycle under a name: it takes its generation and asks its first question. -/
def start (state : Concurrent) (name : String) (views : ViewNames) : Ask × Concurrent :=
  let (generation, cycles) := state.cycles.begin
  let stage := Fetch.Stage.registry
  (stage.ask views, { state with cycles := cycles }.put name ⟨generation, views, .fetching stage⟩)

/-- Gives a cycle the answer to its question; nothing happens if no cycle of that name waits. -/
def reply (state : Concurrent) (name : String) (answer : Reply) : Option (Progress × Concurrent) :=
  match state.find? name with
  | some { generation, views, phase := .fetching stage } =>
    match stage.reply answer with
    | .ask next =>
      some (.waiting (next.ask views), state.put name ⟨generation, views, .fetching next⟩)
    | .done result => match Cycles.tableOf result with
      | .ok table => some (.loaded, state.put name ⟨generation, views, .loaded table⟩)
      | .error fault => some (.failed fault, state.abandon name)
  | _ => none

/-- Lets a cycle offer its table and end; nothing happens if no cycle of that name has one. -/
def publish (state : Concurrent) (name : String) : Option (Progress × Concurrent) :=
  match state.find? name with
  | some { generation, views := _, phase := .loaded table } =>
    let published : Published := ⟨generation, table⟩
    some (.done published,
      { state.abandon name with cycles := (state.cycles.publish published).2 })
  | _ => none

end Concurrent

end RequestBoard
