import RequestBoard.Cycles.Concurrent
import RequestBoard.Proofs.Cycles.Single
import RequestBoard.Proofs.Fetch.Dialogue

/-!
# Runs of moves

Any number of cycles share one generation counter and one published table, and each moves on when it
is told to.  A run is a list of such moves.

* `Concurrent.Move`, `step?`, `runFrom?`, `run?` — a move and a run; a run exists only if every move of
  it is due.
* `find?_put`, `find?_abandon` — a move of one cycle leaves the others alone.
* `reply_eq_some`, `publish_eq_some` — everything that a reply and a publication can do.
* `exists_cycleMoves` — a cycle that runs alone is a run of moves.
-/

namespace RequestBoard

namespace Concurrent

/-! ## Moves and runs -/

/-- One move of one of the cycles. -/
inductive Move where
  /-- A cycle begins under a name and asks its first question. -/
  | start (name : String) (views : ViewNames)
  /-- The question of a cycle is answered. -/
  | reply (name : String) (answer : Reply)
  /-- A cycle offers its table and ends. -/
  | publish (name : String)
  /-- A cycle is abandoned where it stands. -/
  | abandon (name : String)

/-- The state after a move, if the move is due. -/
def step? (state : Concurrent) : Move → Option Concurrent
  | .start name views => some (state.start name views).2
  | .reply name answer => (state.reply name answer).map (·.2)
  | .publish name => (state.publish name).map (·.2)
  | .abandon name => some (state.abandon name)

/-- The state after a run of moves from a given state. -/
def runFrom? (state : Concurrent) : List Move → Option Concurrent
  | [] => some state
  | move :: moves => (state.step? move).bind fun next => next.runFrom? moves

/-- The state after a run of moves, if each of them is due.  In the beginning no generation is given
out, nothing is published and no cycle is in flight. -/
def run? (moves : List Move) : Option Concurrent := runFrom? {} moves

theorem runFrom?_cons {state next : Concurrent} {move : Move} (h : state.step? move = some next)
    (moves : List Move) : state.runFrom? (move :: moves) = next.runFrom? moves := by
  rw [runFrom?, h, Option.bind_some]

theorem runFrom?_append (state : Concurrent) (moves later : List Move) :
    state.runFrom? (moves ++ later) = (state.runFrom? moves).bind fun next => next.runFrom? later := by
  induction moves generalizing state with
  | nil => rfl
  | cons move moves ih =>
    rw [List.cons_append, runFrom?, runFrom?]
    cases state.step? move with
    | none => rfl
    | some next => exact ih next

/-- A run ends with a move that was due after the moves before it. -/
theorem run?_concat {moves : List Move} {move : Move} {state : Concurrent}
    (h : run? (moves ++ [move]) = some state) :
    ∃ before, run? moves = some before ∧ before.step? move = some state := by
  rw [run?, runFrom?_append, Option.bind_eq_some_iff] at h
  obtain ⟨before, hbefore, hstep⟩ := h
  refine ⟨before, hbefore, ?_⟩
  rw [runFrom?, Option.bind_eq_some_iff] at hstep
  obtain ⟨next, hnext, hend⟩ := hstep
  rw [hnext]
  exact hend

/-! ## The cycles in flight -/

theorem lookup_filter_ne (running : List (String × Render)) (name key : String) :
    (running.filter (·.1 != name)).lookup key = if key = name then none else running.lookup key := by
  induction running with
  | nil => simp
  | cons entry running ih =>
    obtain ⟨other, render⟩ := entry
    by_cases hother : other = name
    · subst hother
      by_cases hkey : key = other
      · subst hkey
        simpa using ih
      · have hbeq : (key == other) = false := by simpa using hkey
        simp [List.lookup_cons, hbeq, hkey, ih]
    · by_cases hkey : key = other
      · subst hkey
        simp [hother]
      · have hbeq : (key == other) = false := by simpa using hkey
        simp [List.lookup_cons, hother, hbeq, ih]

@[simp] theorem find?_abandon (state : Concurrent) (name key : String) :
    (state.abandon name).find? key = if key = name then none else state.find? key :=
  lookup_filter_ne state.running name key

@[simp] theorem find?_put (state : Concurrent) (name : String) (render : Render) (key : String) :
    (state.put name render).find? key = if key = name then some render else state.find? key := by
  by_cases h : key = name
  · subst h
    simp [put, find?]
  · have hbeq : (key == name) = false := by simpa using h
    have hothers := find?_abandon state name key
    rw [if_neg h, find?] at hothers
    simp [put, find?, List.lookup_cons, hbeq, h, hothers]

/-- **All that a reply can do.**  The cycle waits; it asks its next question, or has its table, or
fails and is gone. -/
theorem reply_eq_some {state next : Concurrent} {name : String} {answer : Reply} {progress : Progress}
    (h : state.reply name answer = some (progress, next)) :
    ∃ generation views stage, state.find? name = some ⟨generation, views, .fetching stage⟩ ∧
      ((∃ later, stage.reply answer = .ask later ∧ progress = .waiting (later.ask views) ∧
          next = state.put name ⟨generation, views, .fetching later⟩) ∨
        ∃ result, stage.reply answer = .done result ∧
          ((∃ table, Cycles.tableOf result = .ok table ∧ progress = .loaded ∧
              next = state.put name ⟨generation, views, .loaded table⟩) ∨
            ∃ fault, Cycles.tableOf result = .error fault ∧ progress = .failed fault ∧
              next = state.abandon name)) := by
  unfold reply at h
  split at h
  · rename_i generation views stage hfind
    refine ⟨generation, views, stage, hfind, ?_⟩
    cases hreply : stage.reply answer with
    | ask later =>
      rw [hreply] at h
      obtain ⟨hprogress, hnext⟩ := Prod.mk.inj (Option.some.inj h)
      exact Or.inl ⟨later, rfl, hprogress.symm, hnext.symm⟩
    | done result =>
      rw [hreply] at h
      refine Or.inr ⟨result, rfl, ?_⟩
      cases htable : Cycles.tableOf result with
      | ok table =>
        simp only [htable] at h
        obtain ⟨hprogress, hnext⟩ := Prod.mk.inj (Option.some.inj h)
        exact Or.inl ⟨table, rfl, hprogress.symm, hnext.symm⟩
      | error fault =>
        simp only [htable] at h
        obtain ⟨hprogress, hnext⟩ := Prod.mk.inj (Option.some.inj h)
        exact Or.inr ⟨fault, rfl, hprogress.symm, hnext.symm⟩
  · exact absurd h (by simp)

/-- **All that a publication can do.**  The cycle has its table, ends with it under its own generation,
and offers it to the shared state. -/
theorem publish_eq_some {state next : Concurrent} {name : String} {progress : Progress}
    (h : state.publish name = some (progress, next)) :
    ∃ generation views table, state.find? name = some ⟨generation, views, .loaded table⟩ ∧
      progress = .done ⟨generation, table⟩ ∧
      next = { state.abandon name with cycles := (state.cycles.publish ⟨generation, table⟩).2 } := by
  unfold publish at h
  split at h
  · rename_i generation views table hfind
    have hpair := Option.some.inj h
    exact ⟨generation, views, table, hfind, (congrArg Prod.fst hpair).symm,
      (congrArg Prod.snd hpair).symm⟩
  · exact absurd h (by simp)

/-! ## A whole cycle as moves -/

/-- How a cycle ends: it publishes if it has a table. -/
def ending (name : String) : Except Fault Published → List Move
  | .ok _ => [.publish name]
  | .error _ => []

/-- The moves of a cycle that runs from beginning to end. -/
def cycleMoves (name : String) (views : ViewNames) (answers : List Reply)
    (result : Except Fault Published) : List Move :=
  .start name views :: (answers.map (.reply name) ++ ending name result)

/-- The answers of a source bring a cycle to the end of its questions, and to its table if they make
one. -/
theorem exists_replies {σ : Type} (views : ViewNames) (source : Source σ) (name : String)
    (generation : UInt64) (stage : Fetch.Stage) (s : σ) (state : Concurrent)
    (hfind : state.find? name = some ⟨generation, views, .fetching stage⟩) :
    ∃ (answers : List Reply) (next : Concurrent),
      state.runFrom? (answers.map (.reply name)) = some next ∧ next.cycles = state.cycles ∧
      ∀ table, Cycles.tableOf (stage.run views source s).1 = .ok table →
        next.find? name = some ⟨generation, views, .loaded table⟩ := by
  induction stage, s using Fetch.Stage.run.induct views source generalizing state with
  | case1 stage s answer later hsource next hreply ih =>
    have hstep : state.step? (.reply name answer) =
        some (state.put name ⟨generation, views, .fetching next⟩) := by
      simp [step?, reply, hfind, hreply]
    obtain ⟨answers, last, hrun, hcycles, htable⟩ :=
      ih (state.put name ⟨generation, views, .fetching next⟩) (by rw [find?_put, if_pos rfl])
    refine ⟨answer :: answers, last, ?_, hcycles, ?_⟩
    · rw [List.map_cons, runFrom?_cons hstep, hrun]
    · rwa [Fetch.Stage.run_of_ask hsource hreply]
  | case2 stage s answer later hsource result hreply =>
    rw [Fetch.Stage.run_of_done hsource hreply]
    cases hresult : Cycles.tableOf result with
    | ok table =>
      have hstep : state.step? (.reply name answer) =
          some (state.put name ⟨generation, views, .loaded table⟩) := by
        simp [step?, reply, hfind, hreply, hresult]
      refine ⟨[answer], _, runFrom?_cons hstep [], rfl, fun other hother => ?_⟩
      rw [find?_put, if_pos rfl, Except.ok.inj hother]
    | error fault =>
      have hstep : state.step? (.reply name answer) = some (state.abandon name) := by
        simp [step?, reply, hfind, hreply, hresult]
      exact ⟨[answer], _, runFrom?_cons hstep [], rfl, fun other hother => absurd hother (by simp)⟩

/-- **A cycle that runs alone is a run of moves**, and leaves the shared state as these moves do. -/
theorem exists_cycleMoves {σ : Type} (state : Concurrent) (name : String) (views : ViewNames)
    (source : Source σ) (s : σ) :
    ∃ (answers : List Reply) (next : Concurrent),
      state.runFrom? (cycleMoves name views answers (state.cycles.run views source s).1) = some next ∧
      next.cycles = (state.cycles.run views source s).2.1 := by
  have hfind : (state.start name views).2.find? name =
      some ⟨state.cycles.begin.1, views, .fetching .registry⟩ := by
    simp [start]
  obtain ⟨answers, last, hrun, hcycles, htable⟩ :=
    exists_replies views source name _ .registry s _ hfind
  have hstart : state.step? (.start name views) = some (state.start name views).2 := rfl
  have hload : Cycles.load views source s =
      (Cycles.tableOf (Fetch.Stage.registry.run views source s).1,
        (Fetch.Stage.registry.run views source s).2) := rfl
  refine ⟨answers, ?_⟩
  rw [cycleMoves, runFrom?_cons hstart, runFrom?_append, hrun, Option.bind_some, Cycles.run, hload]
  cases hresult : Cycles.tableOf (Fetch.Stage.registry.run views source s).1 with
  | ok table =>
    have hloaded := htable table hresult
    have hpublish : last.step? (.publish name) =
        some { last.abandon name with
          cycles := (last.cycles.publish ⟨state.cycles.begin.1, table⟩).2 } := by
      simp [step?, publish, hloaded]
    exact ⟨_, runFrom?_cons hpublish [], by rw [hcycles]; rfl⟩
  | error fault => exact ⟨last, rfl, hcycles⟩

end Concurrent

end RequestBoard
