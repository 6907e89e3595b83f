import RequestBoard.Proofs.Cycles.History
import RequestBoard.Proofs.Cycles.Loading

/-!
# The published table is the newest

A published table stays until one of a later cycle replaces it, and an earlier cycle that ends late
leaves it in place.  So what is published depends on which cycles have published, and not on the order
in which they did, nor on any cycle that failed or was abandoned.

* `Life.IsNewest` — the cycle of the largest number among some.
* `Published.IsOf`, `ShowsNewest` — what is published belongs to the newest cycle that has published.
* `ShowsNewest.publish` — a publication keeps it so, whether the table is taken or not.
* `Life.rows`, `Life.good_of_table` — **a cycle that has a table** was given no fault and no bad row.
* `Concurrent.Follows` — a state agrees with a history: the counter, the cycles in flight and what is
  published.  Each move keeps it so.
* `Concurrent.latest_is_newest_completed` — **the result, for every run**.
-/

namespace RequestBoard

/-! ## The newest cycle -/

/-- The same cycle under another number. -/
def Life.renumber (life : Life) (number : Nat → Nat) : Life :=
  { life with number := number life.number }

/-- A cycle of the given ones has a larger number than all the others. -/
def Life.IsNewest (life : Life) (lives : List Life) : Prop :=
  life ∈ lives ∧ ∀ other ∈ lives, other ≠ life → other.number < life.number

namespace Life.IsNewest

theorem unique {life other : Life} {lives : List Life} (h : life.IsNewest lives)
    (hother : other.IsNewest lives) : other = life := by
  by_contra hne
  have h1 := h.2 other hother.1 hne
  have h2 := hother.2 life h.1 (Ne.symm hne)
  omega

/-- A later cycle becomes the newest one. -/
theorem concat_of_lt {life later : Life} {lives : List Life} (h : life.IsNewest lives)
    (hlt : life.number < later.number) : later.IsNewest (lives ++ [later]) := by
  refine ⟨by simp, fun other hother hne => ?_⟩
  rw [List.mem_append, List.mem_singleton] at hother
  rcases hother with hother | rfl
  · by_cases hlife : other = life
    · rw [hlife]
      exact hlt
    · have := h.2 other hother hlife
      omega
  · exact absurd rfl hne

/-- An earlier cycle leaves the newest one what it is. -/
theorem concat_of_gt {life earlier : Life} {lives : List Life} (h : life.IsNewest lives)
    (hlt : earlier.number < life.number) : life.IsNewest (lives ++ [earlier]) := by
  refine ⟨List.mem_append_left _ h.1, fun other hother hne => ?_⟩
  rw [List.mem_append, List.mem_singleton] at hother
  rcases hother with hother | rfl
  · exact h.2 other hother hne
  · exact hlt

/-- The newest cycle is the newest one still where the cycles have other numbers in the same order. -/
theorem renumber {life : Life} {lives others : List Life} {number : Nat → Nat}
    (h : life.IsNewest lives) (hnumber : ∀ m n, m < n → number m < number n)
    (hsame : ∀ other, other ∈ others ↔ ∃ original ∈ lives, other = original.renumber number) :
    (life.renumber number).IsNewest others := by
  refine ⟨(hsame _).2 ⟨life, h.1, rfl⟩, fun other hother hne => ?_⟩
  obtain ⟨original, horiginal, rfl⟩ := (hsame other).1 hother
  refine hnumber _ _ (h.2 original horiginal fun heq => hne ?_)
  rw [heq]

end Life.IsNewest

/-! ## What is published -/

/-- A published table is the cycle's own: under its generation, made by its replies. -/
structure Published.IsOf (published : Published) (life : Life) : Prop where
  generation : published.generation.toNat = life.number
  table : life.table? = some published.table

/-- Nothing is published if no cycle has published; otherwise the table of the newest one is. -/
def ShowsNewest : Option Published → List Life → Prop
  | none, lives => lives = []
  | some published, lives => ∃ life : Life, life.IsNewest lives ∧ published.IsOf life

namespace ShowsNewest

/-- Nothing is published exactly if no cycle has published. -/
theorem eq_none_iff {latest : Option Published} {lives : List Life} (h : ShowsNewest latest lives) :
    latest = none ↔ lives = [] := by
  cases latest with
  | none => exact ⟨fun _ => h, fun _ => rfl⟩
  | some published =>
    obtain ⟨life, hnewest, -⟩ := h
    refine ⟨fun hnone => absurd hnone (by simp), fun hnil => ?_⟩
    rw [hnil] at hnewest
    exact absurd hnewest.1 List.not_mem_nil

/-- Where the same cycles have published under other numbers in the same order, the same table is
published under the other number. -/
theorem renumber {latest latest' : Option Published} {lives lives' : List Life} {number : Nat → Nat}
    (h : ShowsNewest latest lives) (h' : ShowsNewest latest' lives')
    (hnumber : ∀ m n, m < n → number m < number n)
    (hsame : ∀ life, life ∈ lives' ↔ ∃ original ∈ lives, life = original.renumber number) :
    latest'.map (fun published => (published.generation.toNat, published.table)) =
      latest.map fun published => (number published.generation.toNat, published.table) := by
  cases latest with
  | none =>
    have hlives : lives = [] := h
    have hlives' : lives' = [] := by
      rw [List.eq_nil_iff_forall_not_mem]
      intro life hlife
      obtain ⟨original, horiginal, -⟩ := (hsame life).1 hlife
      rw [hlives] at horiginal
      exact List.not_mem_nil horiginal
    rw [h'.eq_none_iff.2 hlives']
    rfl
  | some published =>
    obtain ⟨life, hnewest, hown⟩ := h
    have hrenumbered := hnewest.renumber hnumber hsame
    cases latest' with
    | none =>
      have hlives' : lives' = [] := h'
      rw [hlives'] at hrenumbered
      exact absurd hrenumbered.1 List.not_mem_nil
    | some published' =>
      obtain ⟨life', hnewest', hown'⟩ := h'
      rw [hrenumbered.unique hnewest'] at hown'
      have htable : some published'.table = some published.table :=
        hown'.table.symm.trans hown.table
      rw [Option.map_some, Option.map_some, hown'.generation, hown.generation,
        Option.some.inj htable]
      rfl

/-- What is published is settled by which cycles have published. -/
theorem eq_of_same {latest latest' : Option Published} {lives lives' : List Life}
    (h : ShowsNewest latest lives) (h' : ShowsNewest latest' lives')
    (hsame : ∀ life, life ∈ lives' ↔ life ∈ lives) : latest' = latest := by
  have hsame' : ∀ life, life ∈ lives' ↔ ∃ original ∈ lives, life = original.renumber id := by
    intro life
    rw [hsame]
    exact ⟨fun hlife => ⟨life, hlife, rfl⟩, fun ⟨original, horiginal, heq⟩ => heq ▸ horiginal⟩
  have hmap := h.renumber h' (fun m n hlt => hlt) hsame'
  refine Option.map_injective (fun published other heq => ?_) hmap
  obtain ⟨generation, table⟩ := published
  obtain ⟨generation', table'⟩ := other
  obtain ⟨htoNat, htable⟩ := Prod.mk.inj heq
  have hgeneration : generation = generation' := UInt64.toNat_inj.1 htoNat
  rw [hgeneration, show table = table' from htable]

/-- **A publication shows the newest cycle still**, whether the table is taken or dropped. -/
theorem publish {cycles : Cycles} {lives : List Life} {life : Life} {published : Published}
    (h : ShowsNewest cycles.latest lives) (hnumber : life.number ∉ lives.map (·.number))
    (hown : published.IsOf life) :
    ShowsNewest (cycles.publish published).2.latest (lives ++ [life]) := by
  rw [Cycles.latest_publish]
  cases hlatest : cycles.latest with
  | none =>
    rw [hlatest] at h
    have hlives : lives = [] := h
    refine ⟨life, ⟨by simp, fun other hother hne => ?_⟩, hown⟩
    rw [hlives, List.nil_append, List.mem_singleton] at hother
    exact absurd hother hne
  | some current =>
    rw [hlatest] at h
    obtain ⟨newest, hnewest, hcurrent⟩ := h
    have hne : newest.number ≠ life.number := fun heq =>
      hnumber (List.mem_map.2 ⟨newest, hnewest.1, heq⟩)
    -- generations are compared as words, numbers as naturals
    have hle : current.generation ≤ published.generation ↔ newest.number ≤ life.number := by
      rw [UInt64.le_iff_toNat_le, hcurrent.generation, hown.generation]
    simp only
    split
    · rename_i hlate
      have := hle.1 hlate
      exact ⟨life, hnewest.concat_of_lt (by omega), hown⟩
    · rename_i hearly
      have hgt := mt hle.2 hearly
      exact ⟨newest, hnewest.concat_of_gt (by omega), hcurrent⟩

end ShowsNewest

/-! ## What makes a table -/

/-- The rows of a cycle's batches: those of its first reply and those of its third one. -/
def Life.rows (life : Life) : List View.Row :=
  (life.replies[0]?).elim [] Fetch.rowsOf ++ (life.replies[2]?).elim [] Fetch.rowsOf

/-- **A cycle that has a table** was given no fault, and no bad row. -/
theorem Life.good_of_table {life : Life} {table : Table} (h : life.table? = some table) :
    (∀ reply ∈ life.replies, Fetch.IsAnswer reply) ∧ ∀ row ∈ life.rows, ¬ row.IsBad := by
  obtain ⟨hload, hused⟩ : Cycles.tableOf (Fetch.run life.views Fetch.ofReplies life.replies).1 =
      .ok table ∧ (Fetch.run life.views Fetch.ofReplies life.replies).2 = [] := by
    rw [table?] at h
    split at h
    case h_1 made heq =>
      obtain rfl := Option.some.inj h
      exact Prod.mk.inj heq
    case h_2 => exact absurd h nofun
  obtain ⟨log, hlog, htold⟩ := Fetch.exists_answers life.views .registry life.replies
  obtain ⟨hanswers, hgood⟩ := (Cycles.exists_table_iff hlog.course).1 ⟨table, hload⟩
  -- no reply is left over, so the answers are all of them
  have hreplies : life.replies = log.map (·.2) := by
    rw [htold hanswers]
    exact (congrArg _ hused).trans (List.append_nil _)
  have hrows : life.rows = Fetch.rowsAt log 0 ++ Fetch.rowsAt log 2 := by
    simp only [rows, Fetch.rowsAt, hreplies, List.getElem?_map]
    cases log[0]? <;> cases log[2]? <;> rfl
  rw [hrows, hreplies, List.forall_mem_map]
  exact ⟨hanswers, hgood⟩

/-! ## States and histories -/

/-- What a cycle's replies have brought it to: a stage from which it goes on just as from its
beginning, or the table that they make. -/
def Life.Reaches (life : Life) : Phase → Prop
  | .fetching stage => ∀ more, Fetch.run life.views Fetch.ofReplies (life.replies ++ more) =
      stage.run life.views Fetch.ofReplies more
  | .loaded table => life.table? = some table

/-- A cycle in flight is where its history has brought it. -/
structure Render.Follows (render : Render) (life : Life) : Prop where
  generation : render.generation = UInt64.ofNat life.number
  views : render.views = life.views
  phase : life.Reaches render.phase

/-- A further reply brings a cycle to its next question. -/
theorem Life.Reaches.ask {life : Life} {stage next : Fetch.Stage} {answer : Reply}
    (h : life.Reaches (.fetching stage)) (hreply : stage.reply answer = .ask next) :
    { life with replies := life.replies ++ [answer] }.Reaches (.fetching next) := by
  intro more
  have hmore := h (answer :: more)
  rw [Fetch.Stage.run_of_ask rfl hreply] at hmore
  rw [← hmore, List.append_assoc]
  rfl

/-- The last reply brings a cycle to the table that all of them make. -/
theorem Life.Reaches.done {life : Life} {stage : Fetch.Stage} {answer : Reply}
    {result : Except Fault Batches} {table : Table} (h : life.Reaches (.fetching stage))
    (hreply : stage.reply answer = .done result) (htable : Cycles.tableOf result = .ok table) :
    { life with replies := life.replies ++ [answer] }.Reaches (.loaded table) := by
  have hrun := h [answer]
  rw [Fetch.Stage.run_of_done rfl hreply] at hrun
  simp [Reaches, Life.table?, Cycles.load, hrun, htable]

namespace Concurrent

/-- A state agrees with a history. -/
structure Follows (state : Concurrent) (history : History) : Prop where
  issued : state.cycles.issued = UInt64.ofNat history.begun
  running : ∀ name render, state.find? name = some render →
    ∃ life, history.running name = some life ∧ render.Follows life
  latest : ShowsNewest state.cycles.latest history.completed
  made : ∀ life ∈ history.completed, ∃ table, life.table? = some table

/-- Cycles under other names are not touched, neither in the state nor in the history. -/
theorem Follows.running_set {state next : Concurrent} {history : History} (h : state.Follows history)
    {name : String} {life? : Option Life}
    (hothers : ∀ key, key ≠ name → next.find? key = state.find? key)
    (hname : ∀ render, next.find? name = some render →
      ∃ life, life? = some life ∧ render.Follows life) :
    ∀ key render, next.find? key = some render →
      ∃ life, (history.set name life?).running key = some life ∧ render.Follows life := by
  intro key render hfind
  by_cases hkey : key = name
  · subst hkey
    obtain ⟨life, hlife, hfollows⟩ := hname render hfind
    exact ⟨life, by simp [History.set, hlife], hfollows⟩
  · rw [hothers key hkey] at hfind
    obtain ⟨life, hlife, hfollows⟩ := h.running key render hfind
    exact ⟨life, by simp [History.set, hkey, hlife], hfollows⟩

theorem Follows.put {state : Concurrent} {history : History} (h : state.Follows history)
    {name : String} {render : Render} {life : Life} (hrender : render.Follows life) :
    (state.put name render).Follows (history.set name (some life)) := by
  refine ⟨h.issued, h.running_set (fun key hkey => by simp [hkey]) fun other hother => ?_, h.latest,
    h.made⟩
  rw [find?_put, if_pos rfl, Option.some.injEq] at hother
  exact ⟨life, rfl, hother ▸ hrender⟩

theorem Follows.abandon {state : Concurrent} {history : History} (h : state.Follows history)
    (name : String) (life? : Option Life) :
    (state.abandon name).Follows (history.set name life?) := by
  refine ⟨h.issued, h.running_set (fun key hkey => by simp [hkey]) fun other hother => ?_, h.latest,
    h.made⟩
  rw [find?_abandon, if_pos rfl] at hother
  exact absurd hother (by simp)

theorem Follows.start {state : Concurrent} {history : History} (h : state.Follows history)
    (name : String) (views : ViewNames) :
    (state.start name views).2.Follows (history.move (.start name views)) := by
  have hissued : state.cycles.begin.1 = UInt64.ofNat (history.begun + 1) := by
    rw [UInt64.ofNat_add, ← h.issued]
    rfl
  have hbegun : Follows { state with cycles := state.cycles.begin.2 }
      { history with begun := history.begun + 1 } := ⟨hissued, h.running, h.latest, h.made⟩
  exact hbegun.put ⟨hissued, rfl, fun more => rfl⟩

theorem Follows.reply {state next : Concurrent} {history : History} (h : state.Follows history)
    {name : String} {answer : Reply} {progress : Progress}
    (hreply : state.reply name answer = some (progress, next)) :
    next.Follows (history.move (.reply name answer)) := by
  obtain ⟨generation, views, stage, hfind, hcases⟩ := reply_eq_some hreply
  obtain ⟨life, hlife, hrender⟩ := h.running name _ hfind
  have hmove : history.move (.reply name answer) =
      history.set name (some { life with replies := life.replies ++ [answer] }) := by
    rw [History.move, hlife, Option.map_some]
  rw [hmove]
  rcases hcases with ⟨later, hask, -, rfl⟩ | ⟨result, hdone, hresult⟩
  · exact h.put ⟨hrender.generation, hrender.views, hrender.phase.ask hask⟩
  · rcases hresult with ⟨table, htable, -, rfl⟩ | ⟨fault, -, -, rfl⟩
    · exact h.put ⟨hrender.generation, hrender.views, hrender.phase.done hdone htable⟩
    · exact h.abandon name _

/-- A cycle that can publish has the table of its own replies, under its own generation. -/
theorem Follows.of_publish {state next : Concurrent} {history : History} (h : state.Follows history)
    (hsound : history.Sound) (hbegun : history.begun < UInt64.size) {name : String}
    {progress : Progress} (hpublish : state.publish name = some (progress, next)) :
    ∃ life published, history.running name = some life ∧ published.IsOf life ∧
      progress = .done published ∧
      next = { state.abandon name with cycles := (state.cycles.publish published).2 } := by
  obtain ⟨generation, views, table, hfind, hprogress, hnext⟩ := publish_eq_some hpublish
  obtain ⟨life, hlife, hrender⟩ := h.running name _ hfind
  have hnumber : life.number < UInt64.size :=
    Nat.lt_of_le_of_lt (hsound.running_le name life hlife) hbegun
  have hgeneration : generation.toNat = life.number := by
    rw [show generation = UInt64.ofNat life.number from hrender.generation,
      UInt64.toNat_ofNat_of_lt' hnumber]
  exact ⟨life, ⟨generation, table⟩, hlife, ⟨hgeneration, hrender.phase⟩, hprogress, hnext⟩

theorem Follows.publish {state next : Concurrent} {history : History} (h : state.Follows history)
    (hsound : history.Sound) (hbegun : history.begun < UInt64.size) {name : String}
    {progress : Progress} (hpublish : state.publish name = some (progress, next)) :
    next.Follows (history.move (.publish name)) := by
  obtain ⟨life, published, hlife, hown, -, rfl⟩ := h.of_publish hsound hbegun hpublish
  have hmove : history.move (.publish name) =
      { history.set name none with completed := history.completed ++ [life] } := by
    rw [History.move, hlife]
    rfl
  rw [hmove]
  have hgone := h.abandon name none
  refine ⟨?_, hgone.running, ?_, ?_⟩
  · rw [Cycles.issued_publish]
    exact h.issued
  · exact h.latest.publish (hsound.not_completed name life hlife) hown
  · rw [List.forall_mem_append, List.forall_mem_singleton]
    exact ⟨h.made, published.table, hown.table⟩

/-- **Every move of a run keeps state and history in agreement.** -/
theorem follows_ofMoves {moves : List Move} {state : Concurrent} (hrun : run? moves = some state)
    (hbegun : (History.ofMoves moves).begun < UInt64.size) :
    state.Follows (History.ofMoves moves) := by
  induction moves using List.reverseRecOn generalizing state with
  | nil =>
    obtain rfl := Option.some.inj hrun
    exact ⟨rfl, fun name render hfind => absurd hfind (by simp [find?]), rfl, nofun⟩
  | append_singleton moves move ih =>
    obtain ⟨before, hbefore, hstep⟩ := run?_concat hrun
    rw [History.ofMoves_concat] at hbegun ⊢
    have hearlier : (History.ofMoves moves).begun < UInt64.size :=
      Nat.lt_of_le_of_lt (History.begun_le_move _ move) hbegun
    have hfollows := ih hbefore hearlier
    cases move with
    | start name views =>
      obtain rfl := Option.some.inj hstep
      exact hfollows.start name views
    | reply name answer =>
      obtain ⟨⟨progress, next⟩, hreply, rfl⟩ := Option.map_eq_some_iff.1 hstep
      exact hfollows.reply hreply
    | publish name =>
      obtain ⟨⟨progress, next⟩, hpublish, rfl⟩ := Option.map_eq_some_iff.1 hstep
      exact hfollows.publish (History.sound_ofMoves moves) hearlier hpublish
    | abandon name =>
      obtain rfl := Option.some.inj hstep
      exact hfollows.abandon name none

/-- **The published table is that of the newest cycle that has published.**  Run any number of cycles,
with their moves in any order and any of them failing or abandoned anywhere, short of exhausting the
generations.  Then nothing is published exactly if no cycle has published; otherwise the table is the
one that the newest of these cycles made of its own replies, under its own generation.  So runs in
which the same cycles publish end with the same table, whatever their order, and cycles that do not
publish matter only in that they use up generations.  A cycle that publishes has been given no fault and
no bad row: one that has been fails, and never publishes.  It ends with its own table, whether that was
taken or not. -/
theorem latest_is_newest_completed {moves : List Move} {state : Concurrent}
    (hrun : run? moves = some state) (hbegun : (History.ofMoves moves).begun < UInt64.size) :
    (state.cycles.latest = none ↔ (History.ofMoves moves).completed = []) ∧
    (∀ published, state.cycles.latest = some published →
      ∃ life : Life, life.IsNewest (History.ofMoves moves).completed ∧ published.IsOf life) ∧
    (∀ others state', run? others = some state' →
      (History.ofMoves others).begun < UInt64.size →
      (∀ life, life ∈ (History.ofMoves others).completed ↔ life ∈ (History.ofMoves moves).completed) →
      state'.cycles.latest = state.cycles.latest) ∧
    (∀ others state' number, run? others = some state' →
      (History.ofMoves others).begun < UInt64.size → (∀ m n, m < n → number m < number n) →
      (∀ life, life ∈ (History.ofMoves others).completed ↔
        ∃ original ∈ (History.ofMoves moves).completed, life = original.renumber number) →
      state'.cycles.latest.map (·.table) = state.cycles.latest.map (·.table)) ∧
    (∀ life ∈ (History.ofMoves moves).completed, (∃ table, life.table? = some table) ∧
      (∀ reply ∈ life.replies, Fetch.IsAnswer reply) ∧ ∀ row ∈ life.rows, ¬ row.IsBad) ∧
    (∀ name progress next, state.publish name = some (progress, next) →
      ∃ life published, (History.ofMoves moves).running name = some life ∧
        (History.ofMoves (moves ++ [.publish name])).completed =
          (History.ofMoves moves).completed ++ [life] ∧
        progress = .done published ∧ published.IsOf life) := by
  have hfollows := follows_ofMoves hrun hbegun
  refine ⟨hfollows.latest.eq_none_iff, ?_, ?_, ?_, ?_, ?_⟩
  · intro published hlatest
    have hshows := hfollows.latest
    rwa [hlatest] at hshows
  · intro others state' hrun' hbegun' hsame
    exact hfollows.latest.eq_of_same (follows_ofMoves hrun' hbegun').latest hsame
  · intro others state' number hrun' hbegun' hnumber hsame
    have hmap := hfollows.latest.renumber (follows_ofMoves hrun' hbegun').latest hnumber hsame
    simpa [Option.map_map, Function.comp_def] using congrArg (Option.map Prod.snd) hmap
  · intro life hlife
    obtain ⟨table, htable⟩ := hfollows.made life hlife
    exact ⟨⟨table, htable⟩, life.good_of_table htable⟩
  · intro name progress next hpublish
    obtain ⟨life, published, hlife, hown, hprogress, -⟩ :=
      hfollows.of_publish (History.sound_ofMoves moves) hbegun hpublish
    refine ⟨life, published, hlife, ?_, hprogress, hown⟩
    rw [History.ofMoves_concat, History.move, hlife]
    rfl

/-- The first of two cycles publishes last, with a request that the second one has not, and the table of
the second one stays. -/
theorem latest_is_newest_of_late_first :
    let moves := [Move.start "a" {}, .start "b" {}, .reply "b" (.ok {}), .publish "b",
      .reply "a" (.ok { rows := [.document "r" (.object [])] }), .reply "a" (.ok {}), .publish "a"]
    ∃ state published, run? moves = some state ∧ state.cycles.latest = some published ∧
      published.generation = 2 ∧ published.table.rows = [] ∧
      (∃ life : Life, life.number = 2 ∧ life.table? = some published.table) ∧
      ∃ late ∈ (History.ofMoves moves).completed, late.number = 1 ∧
        late.table?.map (fun table => table.rows.map (·.id)) = some ["r"] ∧
        ∀ row ∈ late.rows, ¬ row.IsBad := by
  intro moves
  have hrun : run? moves = some
      { cycles := { issued := 2, latest := some ⟨2, Table.ofStore ∅⟩ }, running := [] } := rfl
  obtain ⟨-, hlatest, -, -, hcompleted, -⟩ := latest_is_newest_completed hrun (by decide)
  obtain ⟨life, -, hown⟩ := hlatest ⟨2, Table.ofStore ∅⟩ rfl
  have hlate : (⟨1, {}, [.ok { rows := [.document "r" (.object [])] }, .ok {}]⟩ : Life) ∈
      (History.ofMoves moves).completed := List.mem_cons_of_mem _ List.mem_cons_self
  refine ⟨_, _, hrun, rfl, rfl, rfl, ⟨life, hown.generation.symm, hown.table⟩, _, hlate, rfl, ?_,
    (hcompleted _ hlate).2.2⟩
  simp only [Life.table?, Cycles.load, Fetch.run]
  rw [Fetch.Stage.run_of_ask rfl rfl, Fetch.Stage.run_of_done rfl rfl]
  rfl

end Concurrent

end RequestBoard
