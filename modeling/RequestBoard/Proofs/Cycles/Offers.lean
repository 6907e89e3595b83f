import RequestBoard.Proofs.Cycles.Single

/-!
# Tables that are offered one after the other

Only the table published last is kept, and an offer is compared with that one alone.  This is enough to
compare it with all earlier offers, those that were turned down included and whatever their generations:
the published table is never behind any of them.

* `Cycles.publishAll` — any number of offers, each with its answer.
* `Published.IsLastHighest` — **the last one of the offers with the largest generation**.
* `ShowsLastHighest.accepts_iff`, `ShowsLastHighest.publish` — one more offer: its answer, and what is
  published after it.
* `ShowsLastHighest.answer_publishAll`, `ShowsLastHighest.latest_publishAll` — any number of them.
* `Cycles.publishAll_shows_last_highest` — **the result**, for every sequence of offers.
-/

namespace RequestBoard

/-! ## Offers -/

/-- Offers tables one after the other, and says of each whether it was published. -/
def Cycles.publishAll (cycles : Cycles) : List Published → List Bool × Cycles
  | [] => ([], cycles)
  | offer :: offers =>
    let (taken, cycles) := cycles.publish offer
    let (answers, cycles) := cycles.publishAll offers
    (taken :: answers, cycles)

/-- The generation is behind that of none of these offers. -/
def Published.NotBehind (published : Published) (offers : List Published) : Prop :=
  ∀ offer ∈ offers, offer.generation ≤ published.generation

instance (published : Published) (offers : List Published) :
    Decidable (published.NotBehind offers) :=
  inferInstanceAs (Decidable (∀ offer ∈ offers, offer.generation ≤ published.generation))

theorem Published.NotBehind.concat {published offer : Published} {offers : List Published}
    (h : published.NotBehind offers) (hle : offer.generation ≤ published.generation) :
    published.NotBehind (offers ++ [offer]) := by
  intro earlier hmem
  rcases List.mem_append.1 hmem with hmem | hmem
  · exact h earlier hmem
  · rwa [List.mem_singleton.1 hmem]

/-- The last one of the offers with the largest generation. -/
structure Published.IsLastHighest (published : Published) (offers : List Published) : Prop where
  notBehind : published.NotBehind offers
  last : (offers.filter (·.generation = published.generation)).getLast? = some published

namespace Published.IsLastHighest

variable {published other offer : Published} {offers : List Published}

theorem mem (h : published.IsLastHighest offers) : published ∈ offers :=
  (List.mem_filter.1 (List.mem_of_getLast? h.last)).1

theorem unique (h : published.IsLastHighest offers) (hother : other.IsLastHighest offers) :
    other = published := by
  have hsame : other.generation = published.generation :=
    UInt64.le_antisymm (h.notBehind other hother.mem) (hother.notBehind published h.mem)
  have hlast := hother.last
  rw [hsame, h.last] at hlast
  exact (Option.some.inj hlast).symm

/-- An offer that is behind none before it becomes the last highest one. -/
theorem concat_self (h : offer.NotBehind offers) : offer.IsLastHighest (offers ++ [offer]) where
  notBehind := h.concat (UInt64.le_refl _)
  last := by simp

/-- An offer behind the last highest one leaves it what it is. -/
theorem concat_of_lt (h : published.IsLastHighest offers)
    (hlt : offer.generation < published.generation) : published.IsLastHighest (offers ++ [offer]) where
  notBehind := h.notBehind.concat (UInt64.le_of_lt hlt)
  last := by
    have hne : offer.generation ≠ published.generation := fun heq => by simp [heq] at hlt
    simp [hne, h.last]

end Published.IsLastHighest

/-! ## One more offer -/

/-- Nothing is published if nothing was offered; otherwise the last highest offer is. -/
def ShowsLastHighest : Option Published → List Published → Prop
  | none, offers => offers = []
  | some published, offers => published.IsLastHighest offers

namespace ShowsLastHighest

variable {latest : Option Published} {cycles : Cycles} {past : List Published}

theorem eq_some_iff (h : ShowsLastHighest latest past) (published : Published) :
    latest = some published ↔ published.IsLastHighest past := by
  cases latest with
  | none =>
    obtain rfl : past = [] := h
    exact iff_of_false (by simp) fun hlast => absurd hlast.mem List.not_mem_nil
  | some current =>
    have hcurrent : current.IsLastHighest past := h
    refine ⟨fun heq => Option.some.inj heq ▸ hcurrent, fun hlast => ?_⟩
    rw [hlast.unique hcurrent]

theorem eq_none_iff (h : ShowsLastHighest latest past) : latest = none ↔ past = [] := by
  cases latest with
  | none => exact iff_of_true rfl h
  | some current =>
    have hcurrent : current.IsLastHighest past := h
    exact iff_of_false (by simp) fun hnil => absurd (hnil ▸ hcurrent.mem) List.not_mem_nil

/-- An offer is accepted exactly if it is behind none before it, whether these were accepted or not. -/
theorem accepts_iff (h : ShowsLastHighest cycles.latest past) (offer : Published) :
    cycles.accepts offer.generation = true ↔ offer.NotBehind past := by
  unfold Cycles.accepts
  cases hlatest : cycles.latest with
  | none =>
    rw [hlatest] at h
    obtain rfl : past = [] := h
    exact iff_of_true rfl fun _ hmem => absurd hmem List.not_mem_nil
  | some current =>
    rw [hlatest] at h
    have hcurrent : current.IsLastHighest past := h
    rw [decide_eq_true_iff]
    exact ⟨fun hle earlier hmem => UInt64.le_trans (hcurrent.notBehind earlier hmem) hle,
      fun hnotBehind => hnotBehind current hcurrent.mem⟩

/-- **One more offer.**  The last highest offer is published still, whether the new one was accepted or
not. -/
theorem publish (h : ShowsLastHighest cycles.latest past) (offer : Published) :
    ShowsLastHighest (cycles.publish offer).2.latest (past ++ [offer]) := by
  rw [Cycles.latest_publish]
  cases hlatest : cycles.latest with
  | none =>
    rw [hlatest] at h
    obtain rfl : past = [] := h
    exact .concat_self fun _ hmem => absurd hmem List.not_mem_nil
  | some current =>
    rw [hlatest] at h
    have hcurrent : current.IsLastHighest past := h
    simp only
    split
    · rename_i hle
      exact .concat_self fun earlier hmem => UInt64.le_trans (hcurrent.notBehind earlier hmem) hle
    · rename_i hgt
      exact hcurrent.concat_of_lt (UInt64.not_le.1 hgt)

/-! ## Any number of offers -/

theorem latest_publishAll (h : ShowsLastHighest cycles.latest past) (offers : List Published) :
    ShowsLastHighest (cycles.publishAll offers).2.latest (past ++ offers) := by
  induction offers generalizing cycles past with
  | nil => rwa [List.append_nil]
  | cons offer offers ih =>
    rw [← List.singleton_append, ← List.append_assoc]
    exact ih (h.publish offer)

/-- Each offer is answered by what the offers before it were, and by nothing else. -/
theorem answer_publishAll (h : ShowsLastHighest cycles.latest past) {offers : List Published} {k : Nat}
    {offer : Published} (hoffer : offers[k]? = some offer) :
    (cycles.publishAll offers).1[k]? = some (decide (offer.NotBehind (past ++ offers.take k))) := by
  induction offers generalizing cycles past k with
  | nil => exact absurd hoffer (by simp)
  | cons first offers ih =>
    cases k with
    | zero =>
      obtain rfl : first = offer := by simpa using hoffer
      have hanswer : (cycles.publish first).1 = decide (first.NotBehind past) := by
        rw [Cycles.fst_publish, Bool.eq_iff_iff, decide_eq_true_iff]
        exact h.accepts_iff first
      rw [List.take_zero, List.append_nil, ← hanswer]
      rfl
    | succ k =>
      have hrest := ih (h.publish first) (k := k) hoffer
      rwa [List.append_assoc, List.singleton_append] at hrest

end ShowsLastHighest

namespace Cycles

theorem length_publishAll (cycles : Cycles) (offers : List Published) :
    (cycles.publishAll offers).1.length = offers.length := by
  induction offers generalizing cycles with
  | nil => rfl
  | cons offer offers ih => exact congrArg (· + 1) (ih (cycles.publish offer).2)

/-- **The last highest offer is published, and every offer is held against all earlier ones.**  Take any
tables, of any generations, that are offered one after the other while nothing is published yet.  Each is
accepted exactly if its generation is at least that of every offer before it, accepted or not.  What is
published in the end is the last one of the offers with the largest generation; nothing is only if nothing
was offered. -/
theorem publishAll_shows_last_highest (issued : UInt64) (offers : List Published) :
    ∃ answers cycles, publishAll { issued := issued } offers = (answers, cycles) ∧
      answers.length = offers.length ∧
      (∀ k offer, offers[k]? = some offer →
        (answers[k]? = some true ↔
          ∀ earlier ∈ offers.take k, earlier.generation ≤ offer.generation)) ∧
      (∀ published, cycles.latest = some published ↔ published.IsLastHighest offers) ∧
      (cycles.latest = none ↔ offers = []) := by
  have hempty : ShowsLastHighest ({ issued := issued } : Cycles).latest [] := rfl
  have hshows := hempty.latest_publishAll offers
  rw [List.nil_append] at hshows
  refine ⟨_, _, rfl, length_publishAll _ offers, fun k offer hoffer => ?_, hshows.eq_some_iff,
    hshows.eq_none_iff⟩
  rw [hempty.answer_publishAll hoffer, Option.some.injEq, decide_eq_true_iff, List.nil_append]
  rfl

/-- Two tables are offered under the largest generation, a lower one between them and another after them:
the second of the two is published. -/
theorem publishAll_shows_last_of_tie :
    ∃ answers cycles,
      publishAll {} [⟨3, ⟨[], []⟩⟩, ⟨1, ⟨[], []⟩⟩, ⟨3, Table.ofStore ∅⟩, ⟨2, ⟨[], []⟩⟩] =
        (answers, cycles) ∧
      answers[1]? ≠ some true ∧ answers[2]? = some true ∧
      cycles.latest = some ⟨3, Table.ofStore ∅⟩ := by
  obtain ⟨answers, cycles, hrun, -, hanswers, hlatest, -⟩ := publishAll_shows_last_highest 0
    [⟨3, ⟨[], []⟩⟩, ⟨1, ⟨[], []⟩⟩, ⟨3, Table.ofStore ∅⟩, ⟨2, ⟨[], []⟩⟩]
  refine ⟨answers, cycles, hrun, ?_, (hanswers 2 _ rfl).2 (by decide), (hlatest _).2 ⟨?_, rfl⟩⟩
  · rw [Ne, hanswers 1 _ rfl]
    decide
  · decide

end Cycles

end RequestBoard
