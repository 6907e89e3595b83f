import RequestBoard.Fetch

/-!
# What a run asks, and what it makes of the answers

A run is a dialogue with a source: one question after the other, each with its answer.  What is asked
next depends on the answers so far, and so does the end.

* `View.IdentifiedBy` — the keys that rows are looked up by, row by row.
* `Stage.run_of_ask`, `run_of_done` — what one answer does for a run.
* `Stage.reply_eq_ask`, `reply_eq_done` — **everything that an answer can lead to**.
* `Fetch.Dialogue`, `exists_dialogue` — the questions and answers from a stage to the end of a run;
  every run is such a dialogue with its source.
* `Fetch.Course`, `Dialogue.course` — **the six ways in which a run can go**, written out.
* `Source.noting`, `run_takes_its_course` — the notes of a source tell which way its run has gone.
-/

namespace RequestBoard

/-! ## The keys of rows -/

namespace View

/-- The keys that rows are looked up by, in row order: the id of a row as a text, or else its key.  A row
that has no id and a null key is passed over. -/
inductive IdentifiedBy : List Row → List Json → Prop where
  | nil : IdentifiedBy [] []
  | id {row : Row} {rows : List Row} {keys : List Json} {id : String} :
    row.id = some id → IdentifiedBy rows keys → IdentifiedBy (row :: rows) (.string id :: keys)
  | key {row : Row} {rows : List Row} {keys : List Json} :
    row.id = none → row.key ≠ .null → IdentifiedBy rows keys →
      IdentifiedBy (row :: rows) (row.key :: keys)
  | skip {row : Row} {rows : List Row} {keys : List Json} :
    row.id = none → row.key = .null → IdentifiedBy rows keys → IdentifiedBy (row :: rows) keys

theorem Row.identifier?_of_id {row : Row} {id : String} (h : row.id = some id) :
    row.identifier? = some (.string id) := by
  rw [identifier?, h]

theorem Row.identifier?_of_key {row : Row} (hid : row.id = none) (hkey : row.key ≠ .null) :
    row.identifier? = some row.key := by
  rw [identifier?, hid]
  cases hvalue : row.key with
  | null => exact absurd hvalue hkey
  | bool | number | string | array | object => rfl

theorem Row.identifier?_of_null {row : Row} (hid : row.id = none) (hkey : row.key = .null) :
    row.identifier? = none := by
  rw [identifier?, hid, hkey]
  rfl

theorem identifiedBy_identifiers (rows : List Row) : IdentifiedBy rows (identifiers rows) := by
  induction rows with
  | nil => exact .nil
  | cons row rows ih =>
    rw [identifiers, List.filterMap_cons]
    cases hid : row.id with
    | some id =>
      rw [Row.identifier?_of_id hid]
      exact .id hid ih
    | none =>
      by_cases hkey : row.key = .null
      · rw [Row.identifier?_of_null hid hkey]
        exact .skip hid hkey ih
      · rw [Row.identifier?_of_key hid hkey]
        exact .key hid hkey ih

theorem IdentifiedBy.identifiers_eq {rows : List Row} {keys : List Json}
    (h : IdentifiedBy rows keys) : identifiers rows = keys := by
  induction h with
  | nil => rfl
  | id hid _ ih => rw [← ih, identifiers, List.filterMap_cons, Row.identifier?_of_id hid, identifiers]
  | key hid hkey _ ih =>
    rw [← ih, identifiers, List.filterMap_cons, Row.identifier?_of_key hid hkey, identifiers]
  | skip hid hkey _ ih =>
    rw [← ih, identifiers, List.filterMap_cons, Row.identifier?_of_null hid hkey, identifiers]

/-- The identifiers of rows are the keys that they are looked up by, and the only ones. -/
theorem identifiedBy_iff {rows : List Row} {keys : List Json} :
    IdentifiedBy rows keys ↔ identifiers rows = keys :=
  ⟨IdentifiedBy.identifiers_eq, fun h => h ▸ identifiedBy_identifiers rows⟩

/-- No row is looked up by null. -/
theorem IdentifiedBy.null_not_mem {rows : List Row} {keys : List Json} (h : IdentifiedBy rows keys) :
    .null ∉ keys := by
  induction h with
  | nil => exact List.not_mem_nil
  | id _ _ ih => exact (List.mem_cons.1 · |>.elim nofun ih)
  | key _ hkey _ ih => exact (List.mem_cons.1 · |>.elim (Ne.symm hkey) ih)
  | skip _ _ _ ih => exact ih

end View

/-! ## Questions and sources -/

/-- The question for the documents of the request registry. -/
def Ask.registry (views : ViewNames) : Ask := ⟨views.campaign, { includeDocs := some true }⟩

/-- The question for the latest agent entries under some keys. -/
def Ask.latest (views : ViewNames) (keys : List Json) : Ask :=
  ⟨views.latest,
    { keys := keys, reduce := some true, group := some true, descending := some true }⟩

/-- The question for the agent documents under some keys. -/
def Ask.agents (views : ViewNames) (keys : List Json) : Ask :=
  ⟨views.latest, { keys := keys, reduce := some false, includeDocs := some true }⟩

/-- The source with notes of every question and its answer, the latest at the end. -/
def Source.noting {σ : Type} (source : Source σ) : Source (σ × List (Ask × Reply)) :=
  fun ask state =>
    ((source ask state.1).1, (source ask state.1).2,
      state.2 ++ [(ask, (source ask state.1).1)])

namespace Fetch

/-- A document store that gives replies off a list, whatever it is asked. -/
def ofReplies : Source (List Reply) := fun _ replies =>
  match replies with
  | [] => (.error (.network "no reply left"), [])
  | answer :: later => (answer, later)

namespace Stage

/-! ## One answer -/

variable {σ : Type} {views : ViewNames} {source : Source σ} {stage : Stage} {state later : σ}
  {answer : Reply}

theorem run_of_ask {next : Stage} (hsource : source (stage.ask views) state = (answer, later))
    (hreply : stage.reply answer = .ask next) :
    stage.run views source state = next.run views source later := by
  rw [run, hsource]
  simp only
  split
  · rename_i other hother
    rw [hreply] at hother
    rw [Next.ask.inj hother]
  · rename_i result hresult
    rw [hreply] at hresult
    exact Next.noConfusion hresult

theorem run_of_done {result : Except Fault Batches}
    (hsource : source (stage.ask views) state = (answer, later))
    (hreply : stage.reply answer = .done result) :
    stage.run views source state = (result, later) := by
  rw [run, hsource]
  simp only
  split
  · rename_i next hnext
    rw [hreply] at hnext
    exact Next.noConfusion hnext
  · rename_i other hother
    rw [hreply] at hother
    rw [Next.done.inj hother]

/-- **When a run goes on.**  It has been given rows that can be looked up, and was not at its last
stage. -/
theorem reply_eq_ask {next : Stage} (h : stage.reply answer = .ask next) :
    ∃ response, answer = .ok response ∧ View.identifiers response.rows ≠ [] ∧
      (stage = registry ∧ next = latest response.rows ∨
        ∃ rows, stage = latest rows ∧ next = agents rows response.rows) := by
  cases answer with
  | error fault => simp [reply] at h
  | ok response =>
    refine ⟨response, rfl, ?_⟩
    cases stage with
    | registry =>
      by_cases hempty : View.identifiers response.rows = []
      · simp [reply, hempty] at h
      · simp only [reply, List.isEmpty_iff, if_neg hempty, Next.ask.injEq] at h
        exact ⟨hempty, Or.inl ⟨rfl, h.symm⟩⟩
    | latest rows =>
      by_cases hempty : View.identifiers response.rows = []
      · simp [reply, hempty] at h
      · simp only [reply, List.isEmpty_iff, if_neg hempty, Next.ask.injEq] at h
        exact ⟨hempty, Or.inr ⟨rows, rfl, h.symm⟩⟩
    | agents rows entries => simp [reply] at h

/-- **When a run ends.**  The answer is a fault, or leaves nothing to look up, or is the last one. -/
theorem reply_eq_done {result : Except Fault Batches} (h : stage.reply answer = .done result) :
    (∃ fault, answer = .error fault ∧ result = .error fault) ∨
      ∃ response, answer = .ok response ∧
        (stage = registry ∧ View.identifiers response.rows = [] ∧ result = .ok ⟨response.rows, []⟩ ∨
          (∃ rows, stage = latest rows ∧ View.identifiers response.rows = [] ∧
            result = .ok ⟨rows, []⟩) ∨
          ∃ rows entries, stage = agents rows entries ∧ result = .ok ⟨rows, response.rows⟩) := by
  cases answer with
  | error fault => exact Or.inl ⟨fault, rfl, (Next.done.inj h).symm⟩
  | ok response =>
    refine Or.inr ⟨response, rfl, ?_⟩
    cases stage with
    | registry =>
      by_cases hempty : View.identifiers response.rows = []
      · simp only [reply, List.isEmpty_iff, if_pos hempty, Next.done.injEq] at h
        exact Or.inl ⟨rfl, hempty, h.symm⟩
      · simp [reply, hempty] at h
    | latest rows =>
      by_cases hempty : View.identifiers response.rows = []
      · simp only [reply, List.isEmpty_iff, if_pos hempty, Next.done.injEq] at h
        exact Or.inr (Or.inl ⟨rows, rfl, hempty, h.symm⟩)
      · simp [reply, hempty] at h
    | agents rows entries => exact Or.inr (Or.inr ⟨rows, entries, rfl, (Next.done.inj h).symm⟩)

end Stage

/-! ## Dialogues -/

/-- The questions and answers from a stage of a run to its end, and the result. -/
inductive Dialogue (views : ViewNames) :
    Stage → List (Ask × Reply) → Except Fault Batches → Prop where
  | ask {stage next : Stage} {answer : Reply} {log : List (Ask × Reply)}
    {result : Except Fault Batches} : stage.reply answer = .ask next → Dialogue views next log result →
      Dialogue views stage ((stage.ask views, answer) :: log) result
  | done {stage : Stage} {answer : Reply} {result : Except Fault Batches} :
    stage.reply answer = .done result → Dialogue views stage [(stage.ask views, answer)] result

variable {views : ViewNames} {log : List (Ask × Reply)} {result : Except Fault Batches}

/-- **Every run is a dialogue** with the source: the answers are the source's, and whatever the source
shows of itself at a question can be read off the dialogue. -/
theorem exists_dialogue {σ α : Type} (views : ViewNames) (source : Source σ) (seen : σ → List α)
    (shown : Ask → Reply → List α)
    (hseen : ∀ ask state, seen (source ask state).2 = seen state ++ shown ask (source ask state).1)
    (stage : Stage) (state : σ) :
    ∃ log, Dialogue views stage log (stage.run views source state).1 ∧
      (∀ entry ∈ log, ∃ before, (source entry.1 before).1 = entry.2) ∧
      seen (stage.run views source state).2 =
        seen state ++ log.flatMap fun entry => shown entry.1 entry.2 := by
  induction stage, state using Stage.run.induct views source with
  | case1 stage state answer later hsource next hreply ih =>
    obtain ⟨log, hlog, hanswers, hshown⟩ := ih
    rw [Stage.run_of_ask hsource hreply]
    have hstep := hseen (stage.ask views) state
    rw [hsource] at hstep
    refine ⟨(stage.ask views, answer) :: log, .ask hreply hlog, ?_, ?_⟩
    · intro entry hentry
      rcases List.mem_cons.1 hentry with rfl | hentry
      · exact ⟨state, by rw [hsource]⟩
      · exact hanswers entry hentry
    · rw [hshown, hstep, List.flatMap_cons, List.append_assoc]
  | case2 stage state answer later hsource result hreply =>
    rw [Stage.run_of_done hsource hreply]
    have hstep := hseen (stage.ask views) state
    rw [hsource] at hstep
    refine ⟨[(stage.ask views, answer)], .done hreply, ?_, ?_⟩
    · intro entry hentry
      rw [List.mem_singleton] at hentry
      exact ⟨state, by rw [hentry, hsource]⟩
    · rw [hstep, List.flatMap_singleton]

/-- A run goes the same way with a source that answers the same, whatever else that does. -/
theorem run_of_proj {σ τ : Type} (views : ViewNames) (source : Source σ) (other : Source τ)
    (proj : τ → σ)
    (hsame : ∀ ask state, source ask (proj state) = ((other ask state).1, proj (other ask state).2))
    (stage : Stage) (state : τ) :
    stage.run views source (proj state) =
      ((stage.run views other state).1, proj (stage.run views other state).2) := by
  induction stage, state using Stage.run.induct views other with
  | case1 stage state answer later hother next hreply ih =>
    have hsource := hsame (stage.ask views) state
    rw [hother] at hsource
    rw [Stage.run_of_ask hother hreply, Stage.run_of_ask hsource hreply, ih]
  | case2 stage state answer later hother result hreply =>
    have hsource := hsame (stage.ask views) state
    rw [hother] at hsource
    rw [Stage.run_of_done hother hreply, Stage.run_of_done hsource hreply]

/-! ## The ways in which a run can go -/

/-- The six ways in which a run can go: the questions with their answers, and the result. -/
inductive Course (views : ViewNames) : List (Ask × Reply) → Except Fault Batches → Prop where
  /-- The registry cannot be read. -/
  | registryFails (fault : Fault) : Course views [(.registry views, .error fault)] (.error fault)
  /-- The registry has no row that can be looked up. -/
  | nothingRegistered (first : View.Response) (hfirst : View.IdentifiedBy first.rows []) :
    Course views [(.registry views, .ok first)] (.ok ⟨first.rows, []⟩)
  /-- The latest entries of the registry rows cannot be read. -/
  | latestFails (first : View.Response) (keys : List Json)
    (hfirst : View.IdentifiedBy first.rows keys) (hkeys : keys ≠ []) (fault : Fault) :
    Course views [(.registry views, .ok first), (.latest views keys, .error fault)] (.error fault)
  /-- No entry can be looked up. -/
  | nothingEntered (first second : View.Response) (keys : List Json)
    (hfirst : View.IdentifiedBy first.rows keys) (hkeys : keys ≠ [])
    (hsecond : View.IdentifiedBy second.rows []) :
    Course views [(.registry views, .ok first), (.latest views keys, .ok second)]
      (.ok ⟨first.rows, []⟩)
  /-- The documents of the entries cannot be read. -/
  | agentsFail (first second : View.Response) (keys entryKeys : List Json)
    (hfirst : View.IdentifiedBy first.rows keys) (hkeys : keys ≠ [])
    (hsecond : View.IdentifiedBy second.rows entryKeys) (hentryKeys : entryKeys ≠ [])
    (fault : Fault) :
    Course views [(.registry views, .ok first), (.latest views keys, .ok second),
      (.agents views entryKeys, .error fault)] (.error fault)
  /-- Everything is read. -/
  | complete (first second third : View.Response) (keys entryKeys : List Json)
    (hfirst : View.IdentifiedBy first.rows keys) (hkeys : keys ≠ [])
    (hsecond : View.IdentifiedBy second.rows entryKeys) (hentryKeys : entryKeys ≠ []) :
    Course views [(.registry views, .ok first), (.latest views keys, .ok second),
      (.agents views entryKeys, .ok third)] (.ok ⟨first.rows, third.rows⟩)

theorem Dialogue.course_of_agents {first second : View.Response}
    (hfirst : View.identifiers first.rows ≠ []) (hsecond : View.identifiers second.rows ≠ [])
    (h : Dialogue views (.agents first.rows second.rows) log result) :
    Course views ((.registry views, .ok first) ::
      (.latest views (View.identifiers first.rows), .ok second) :: log) result := by
  cases h with
  | done hreply =>
    rcases Stage.reply_eq_done hreply with ⟨fault, rfl, rfl⟩ | ⟨third, rfl, hend⟩
    · exact .agentsFail first second _ _ (View.identifiedBy_iff.2 rfl) hfirst
        (View.identifiedBy_iff.2 rfl) hsecond fault
    · rcases hend with ⟨⟨⟩, -⟩ | ⟨rows, ⟨⟩, -⟩ | ⟨rows, entries, ⟨⟩, rfl⟩
      exact .complete first second third _ _ (View.identifiedBy_iff.2 rfl) hfirst
        (View.identifiedBy_iff.2 rfl) hsecond
  | ask hreply hmore =>
    obtain ⟨third, -, -, hnext⟩ := Stage.reply_eq_ask hreply
    rcases hnext with ⟨⟨⟩, -⟩ | ⟨rows, ⟨⟩, -⟩

theorem Dialogue.course_of_latest {first : View.Response}
    (hfirst : View.identifiers first.rows ≠ [])
    (h : Dialogue views (.latest first.rows) log result) :
    Course views ((.registry views, .ok first) :: log) result := by
  cases h with
  | done hreply =>
    rcases Stage.reply_eq_done hreply with ⟨fault, rfl, rfl⟩ | ⟨second, rfl, hend⟩
    · exact .latestFails first _ (View.identifiedBy_iff.2 rfl) hfirst fault
    · rcases hend with ⟨⟨⟩, -⟩ | ⟨rows, ⟨⟩, hempty, rfl⟩ | ⟨rows, entries, ⟨⟩, -⟩
      exact .nothingEntered first second _ (View.identifiedBy_iff.2 rfl) hfirst
        (View.identifiedBy_iff.2 hempty)
  | ask hreply hmore =>
    obtain ⟨second, rfl, hsecond, hnext⟩ := Stage.reply_eq_ask hreply
    rcases hnext with ⟨⟨⟩, -⟩ | ⟨rows, ⟨⟩, rfl⟩
    exact hmore.course_of_agents hfirst hsecond

/-- A dialogue from the beginning goes one of the six ways. -/
theorem Dialogue.course (h : Dialogue views .registry log result) : Course views log result := by
  cases h with
  | done hreply =>
    rcases Stage.reply_eq_done hreply with ⟨fault, rfl, rfl⟩ | ⟨first, rfl, hend⟩
    · exact .registryFails fault
    · rcases hend with ⟨-, hempty, rfl⟩ | ⟨rows, ⟨⟩, -⟩ | ⟨rows, entries, ⟨⟩, -⟩
      exact .nothingRegistered first (View.identifiedBy_iff.2 hempty)
  | ask hreply hmore =>
    obtain ⟨first, rfl, hfirst, hnext⟩ := Stage.reply_eq_ask hreply
    rcases hnext with ⟨-, rfl⟩ | ⟨rows, ⟨⟩, -⟩
    exact hmore.course_of_latest hfirst

/-! ## What a source notes -/

theorem Course.length_le (h : Course views log result) : log.length ≤ 3 := by
  cases h <;> simp

/-- A question is asked only after the one before it was answered. -/
theorem Course.answered (h : Course views log result) :
    ∀ entry ∈ log.dropLast, ∃ response, entry.2 = .ok response := by
  cases h <;> simp

/-- A run fails with the fault that it is answered with last. -/
theorem Course.result_eq_error_iff (h : Course views log result) (fault : Fault) :
    result = .error fault ↔ ∃ ask, log.getLast? = some (ask, .error fault) := by
  cases h <;> simp

/-- Taking notes changes nothing about a run, and the notes are a dialogue. -/
theorem exists_dialogue_noting {σ : Type} (views : ViewNames) (source : Source σ) (stage : Stage)
    (state : σ) :
    ∃ log, Dialogue views stage log (stage.run views source state).1 ∧
      stage.run views source.noting (state, []) =
        ((stage.run views source state).1, (stage.run views source state).2, log) := by
  obtain ⟨log, hlog, -, hnotes⟩ := exists_dialogue views source.noting Prod.snd
    (fun ask answer => [(ask, answer)]) (fun ask state => rfl) stage (state, [])
  have hsame := run_of_proj views source source.noting Prod.fst (fun ask state => rfl) stage
    (state, [])
  obtain ⟨hresult, hstate⟩ := Prod.mk.inj hsame
  refine ⟨log, by rw [hresult]; exact hlog, ?_⟩
  rw [Prod.ext_iff, Prod.ext_iff]
  refine ⟨hresult.symm, hstate.symm, ?_⟩
  rw [hnotes]
  simp

/-- **A run asks what is due, and nothing else.**  Whatever the source answers, a run goes one of six
ways.  It asks for the documents of the registry; if they have keys, for the latest agent entries under
exactly these keys, in row order and with repetitions; if those have keys, for the documents under these.
So there are at most three questions, each asked only after the one before it was answered.  A fault ends
the run at once and is its result; otherwise the result is the rows of the first answer with those of the
third, or with none if the third question was not due. -/
theorem run_takes_its_course {σ : Type} (views : ViewNames) (source : Source σ) (state : σ) :
    ∃ log result later,
      run views source state = (result, later) ∧
      run views source.noting (state, []) = (result, later, log) ∧
      Course views log result ∧
      log.length ≤ 3 ∧
      (∀ entry ∈ log.dropLast, ∃ response, entry.2 = .ok response) ∧
      ∀ fault, result = .error fault ↔ ∃ ask, log.getLast? = some (ask, .error fault) := by
  obtain ⟨log, hlog, hnotes⟩ := exists_dialogue_noting views source .registry state
  have hcourse := hlog.course
  exact ⟨log, _, _, rfl, hnotes, hcourse, hcourse.length_le, hcourse.answered,
    hcourse.result_eq_error_iff⟩

end Fetch

end RequestBoard
