import RequestBoard.Fault
import RequestBoard.View.Query
import RequestBoard.View.Row

/-!
# Fetching the two batches

A run asks the document store up to three questions, each only after the previous one was answered:

1. the documents of the request registry;
2. the latest agent entry of every request found there, reduced and grouped;
3. the agent documents of these entries.  Reduced rows carry no documents, hence the extra question.

A run stops early when there is nothing left to ask for, because a query without keys would read the
whole view.  `Fetch.Stage` is where a run stands; `Stage.ask` and `Stage.reply` make it go on, so that
a run can be driven by whoever has the answers.  `Fetch.run` drives it against a source.
-/

namespace RequestBoard

/-- The names of the two views in the design document. -/
structure ViewNames where
  /-- The view of the request registry. -/
  campaign : String := "campaign-request"
  /-- The view of the execution agents, with a reduce step. -/
  latest : String := "latest-request"
  deriving DecidableEq, Repr

/-- One question to the document store. -/
structure Ask where
  view : String
  query : View.Query

/-- What comes back for a question. -/
abbrev Reply := Except Fault View.Response

/-- A document store: it answers a question, and may change while doing so. -/
abbrev Source (σ : Type) := Ask → σ → Reply × σ

/-- The rows of the request registry and of the execution agents. -/
structure Batches where
  registry : List View.Row
  agent : List View.Row

namespace Fetch

/-- Where a run stands: the question that it waits on, and the rows that it has collected. -/
inductive Stage where
  /-- Waits for the registry. -/
  | registry
  /-- Waits for the latest agent entries of the registry rows. -/
  | latest (registry : List View.Row)
  /-- Waits for the agent documents of the entries. -/
  | agents (registry entries : List View.Row)

/-- How a run goes on: with another question, or with its result. -/
inductive Next where
  | ask (stage : Stage)
  | done (result : Except Fault Batches)

namespace Stage

/-- The question that the run waits on. -/
def ask (views : ViewNames) : Stage → Ask
  | registry => ⟨views.campaign, .ofSettings [.includeDocs true]⟩
  | latest rows =>
    ⟨views.latest, .ofSettings
      [.keys (View.identifiers rows), .reduce true, .group true, .descending true]⟩
  | agents _ entries =>
    ⟨views.latest, .ofSettings
      [.keys (View.identifiers entries), .reduce false, .includeDocs true]⟩

/-- What the run does with the answer to its question.  An error ends it at once. -/
def reply : Stage → Reply → Next
  | _, .error fault => .done (.error fault)
  | registry, .ok response =>
    if (View.identifiers response.rows).isEmpty then .done (.ok ⟨response.rows, []⟩)
    else .ask (latest response.rows)
  | latest rows, .ok response =>
    if (View.identifiers response.rows).isEmpty then .done (.ok ⟨rows, []⟩)
    else .ask (agents rows response.rows)
  | agents rows _, .ok response => .done (.ok ⟨rows, response.rows⟩)

/-- How many questions may still follow the one that the run waits on. -/
def rank : Stage → Nat
  | registry => 2
  | latest _ => 1
  | agents _ _ => 0

/-- Every further question brings the run closer to its end. -/
theorem rank_lt_of_reply_eq_ask {stage next : Stage} {r : Reply}
    (h : stage.reply r = .ask next) : next.rank < stage.rank := by
  cases r with
  | error fault => simp [reply] at h
  | ok response =>
    cases stage with
    | registry =>
      simp only [reply] at h
      split at h
      · exact Next.noConfusion h
      · cases h; simp [rank]
    | latest rows =>
      simp only [reply] at h
      split at h
      · exact Next.noConfusion h
      · cases h; simp [rank]
    | agents rows entries => simp [reply] at h

/-- Drives a run from a stage to its end against a source. -/
def run {σ : Type} (views : ViewNames) (source : Source σ) (stage : Stage) (state : σ) :
    Except Fault Batches × σ :=
  let (answer, state) := source (stage.ask views) state
  match _h : stage.reply answer with
  | .ask next => next.run views source state
  | .done result => (result, state)
termination_by stage.rank
decreasing_by exact rank_lt_of_reply_eq_ask (by assumption)

end Stage

/-- Fetches both batches from a source. -/
def run {σ : Type} (views : ViewNames) (source : Source σ) (state : σ) :
    Except Fault Batches × σ :=
  Stage.registry.run views source state

end Fetch

end RequestBoard
