import Mathlib.Data.List.Induction
import Mathlib.Data.List.Nodup
import RequestBoard.Proofs.Cycles.Moves

/-!
# The history of a run of cycles

The history of a run is told by its moves alone: who began when, which replies reached whom, and who
went on to publish.

* `Life`, `History` — what one cycle has been through, and what all of them have.
* `History.sound_ofMoves` — **no two cycles share a number**, whatever is abandoned, restarted or
  published.
-/

namespace RequestBoard

/-! ## Histories -/

/-- What one cycle has been through: its number in the order of beginning, the views that it asks for,
and the replies that it has been given. -/
structure Life where
  number : Nat
  views : ViewNames
  replies : List Reply

/-- The table that a cycle's own replies make: what loading comes to from a document store that gives
these replies, if it uses all of them. -/
def Life.table? (life : Life) : Option Table :=
  match Cycles.load life.views Fetch.ofReplies life.replies with
  | (.ok table, []) => some table
  | _ => none

/-- What all cycles have been through. -/
structure History where
  /-- How many cycles have begun. -/
  begun : Nat := 0
  /-- The cycle that began under a name last, unless it has published or was abandoned. -/
  running : String → Option Life := fun _ => none
  /-- The cycles that have published, in this order, whether their tables were taken or not. -/
  completed : List Life := []

namespace History

/-- The history with another cycle, or none, under a name. -/
def set (history : History) (name : String) (life : Option Life) : History :=
  { history with running := fun key => if key = name then life else history.running key }

/-- The history after one more move. -/
def move (history : History) : Concurrent.Move → History
  | .start name views =>
    { history.set name (some ⟨history.begun + 1, views, []⟩) with begun := history.begun + 1 }
  | .reply name answer =>
    history.set name ((history.running name).map fun life =>
      { life with replies := life.replies ++ [answer] })
  | .publish name =>
    { history.set name none with
      completed := history.completed ++ (history.running name).toList }
  | .abandon name => history.set name none

/-- The history that a run of moves tells. -/
def ofMoves (moves : List Concurrent.Move) : History := moves.foldl move {}

theorem ofMoves_concat (moves : List Concurrent.Move) (move : Concurrent.Move) :
    ofMoves (moves ++ [move]) = (ofMoves moves).move move := by
  rw [ofMoves, List.foldl_append]
  rfl

/-- Cycles begin and never unbegin. -/
theorem begun_le_move (history : History) (move : Concurrent.Move) :
    history.begun ≤ (history.move move).begun := by
  cases move <;> simp [History.move, set]

/-! ## Numbers are not shared -/

/-- Numbers are given out in order, and no two cycles have the same one. -/
structure Sound (history : History) : Prop where
  running_le : ∀ name life, history.running name = some life → life.number ≤ history.begun
  completed_le : ∀ life ∈ history.completed, life.number ≤ history.begun
  running_inj : ∀ name life other life', history.running name = some life →
    history.running other = some life' → life.number = life'.number → name = other
  not_completed : ∀ name life, history.running name = some life →
    life.number ∉ history.completed.map (·.number)
  nodup : (history.completed.map (·.number)).Nodup

/-- A move that only takes cycles away, or changes something else about them, shares no number. -/
theorem Sound.of_running {history next : History} (h : Sound history)
    (hbegun : next.begun = history.begun) (hcompleted : next.completed = history.completed)
    (hrunning : ∀ name life, next.running name = some life →
      ∃ old, history.running name = some old ∧ old.number = life.number) : Sound next := by
  refine ⟨?_, ?_, ?_, ?_, ?_⟩
  · intro name life hlife
    obtain ⟨old, hold, hnumber⟩ := hrunning name life hlife
    rw [← hnumber, hbegun]
    exact h.running_le name old hold
  · rw [hcompleted, hbegun]
    exact h.completed_le
  · intro name life other life' hlife hlife' heq
    obtain ⟨old, hold, hnumber⟩ := hrunning name life hlife
    obtain ⟨old', hold', hnumber'⟩ := hrunning other life' hlife'
    exact h.running_inj name old other old' hold hold' (by rw [hnumber, hnumber', heq])
  · intro name life hlife
    obtain ⟨old, hold, hnumber⟩ := hrunning name life hlife
    rw [← hnumber, hcompleted]
    exact h.not_completed name old hold
  · rw [hcompleted]
    exact h.nodup

theorem Sound.abandon {history : History} (h : Sound history) (name : String) :
    Sound (history.set name none) := by
  refine h.of_running rfl rfl fun key life hlife => ?_
  by_cases hkey : key = name
  · simp [set, hkey] at hlife
  · simp only [set, if_neg hkey] at hlife
    exact ⟨life, hlife, rfl⟩

theorem Sound.reply {history : History} (h : Sound history) (name : String) (answer : Reply) :
    Sound (history.move (.reply name answer)) := by
  refine h.of_running rfl rfl fun key life hlife => ?_
  by_cases hkey : key = name
  · simp only [History.move, set, if_pos hkey, Option.map_eq_some_iff] at hlife
    obtain ⟨old, hold, rfl⟩ := hlife
    exact ⟨old, by rw [hkey, hold], rfl⟩
  · simp only [History.move, set, if_neg hkey] at hlife
    exact ⟨life, hlife, rfl⟩

theorem Sound.start {history : History} (h : Sound history) (name : String) (views : ViewNames) :
    Sound (history.move (.start name views)) := by
  -- the new number is larger than any that was given out before
  have hnew : ∀ key life, key ≠ name → (history.move (.start name views)).running key = some life →
      history.running key = some life ∧ life.number ≤ history.begun := by
    intro key life hkey hlife
    simp only [History.move, set, if_neg hkey] at hlife
    exact ⟨hlife, h.running_le key life hlife⟩
  have hname : ∀ life, (history.move (.start name views)).running name = some life →
      life.number = history.begun + 1 := by
    intro life hlife
    simp only [History.move, set, if_pos, Option.some.injEq] at hlife
    rw [← hlife]
  have hbegun : (history.move (.start name views)).begun = history.begun + 1 := rfl
  refine ⟨?_, ?_, ?_, ?_, h.nodup⟩
  · intro key life hlife
    rw [hbegun]
    by_cases hkey : key = name
    · exact Nat.le_of_eq (hname life (hkey ▸ hlife))
    · have := (hnew key life hkey hlife).2
      omega
  · intro life hlife
    have := h.completed_le life hlife
    rw [hbegun]
    omega
  · intro key life other life' hlife hlife' heq
    by_cases hkey : key = name
    · by_cases hother : other = name
      · rw [hkey, hother]
      · have h1 := hname life (hkey ▸ hlife)
        have h2 := (hnew other life' hother hlife').2
        omega
    · by_cases hother : other = name
      · have h1 := hname life' (hother ▸ hlife')
        have h2 := (hnew key life hkey hlife).2
        omega
      · exact h.running_inj key life other life' (hnew key life hkey hlife).1
          (hnew other life' hother hlife').1 heq
  · intro key life hlife
    by_cases hkey : key = name
    · intro hmem
      obtain ⟨done, hdone, hnumber⟩ := List.mem_map.1 hmem
      have h1 := h.completed_le done hdone
      have h2 := hname life (hkey ▸ hlife)
      omega
    · exact h.not_completed key life (hnew key life hkey hlife).1

theorem Sound.publish {history : History} (h : Sound history) (name : String) :
    Sound (history.move (.publish name)) := by
  cases hname : history.running name with
  | none =>
    have hsame : history.move (.publish name) = history.set name none := by
      simp [History.move, hname, set]
    rw [hsame]
    exact h.abandon name
  | some life =>
    have hcompleted : (history.move (.publish name)).completed = history.completed ++ [life] := by
      simp [History.move, hname]
    have hrunning : ∀ key other, (history.move (.publish name)).running key = some other →
        key ≠ name ∧ history.running key = some other := by
      intro key other hother
      by_cases hkey : key = name
      · simp [History.move, set, hkey] at hother
      · simp only [History.move, set, if_neg hkey] at hother
        exact ⟨hkey, hother⟩
    refine ⟨fun key other hother => h.running_le key other (hrunning key other hother).2, ?_, ?_, ?_, ?_⟩
    · intro done hdone
      rw [hcompleted, List.mem_append, List.mem_singleton] at hdone
      rcases hdone with hdone | rfl
      · exact h.completed_le done hdone
      · exact h.running_le name done hname
    · intro key other key' other' hother hother' heq
      exact h.running_inj key other key' other' (hrunning key other hother).2
        (hrunning key' other' hother').2 heq
    · intro key other hother hmem
      obtain ⟨hkey, hold⟩ := hrunning key other hother
      rw [hcompleted, List.map_append, List.mem_append] at hmem
      rcases hmem with hmem | hmem
      · exact h.not_completed key other hold hmem
      · rw [List.map_singleton, List.mem_singleton] at hmem
        exact hkey (h.running_inj key other name life hold hname hmem)
    · rw [hcompleted, List.map_append, List.nodup_append]
      refine ⟨h.nodup, by simp, ?_⟩
      intro number hnumber other hother heq
      rw [List.map_singleton, List.mem_singleton] at hother
      exact h.not_completed name life hname (by rwa [← hother, ← heq])

/-- **No two cycles share a number**, whatever the order of the moves. -/
theorem sound_ofMoves (moves : List Concurrent.Move) : Sound (ofMoves moves) := by
  induction moves using List.reverseRecOn with
  | nil => exact ⟨by simp [ofMoves], by simp [ofMoves], by simp [ofMoves], by simp [ofMoves],
      by simp [ofMoves]⟩
  | append_singleton moves move ih =>
    rw [ofMoves_concat]
    cases move with
    | start name views => exact ih.start name views
    | reply name answer => exact ih.reply name answer
    | publish name => exact ih.publish name
    | abandon name => exact ih.abandon name

end History

end RequestBoard
