import Mathlib.Data.List.Basic
import RequestBoard.Proofs.Cycles.Single
import RequestBoard.Proofs.Fetch.Dialogue
import RequestBoard.Service

/-!
# The latest table is that of the last success

Only a request for a fresh table has a cycle run.  It takes the next generation, whether the cycle
succeeds or not; the published table changes only with a success.  Between them the two tell the whole
history of the service.

* `Request.asksTable`, `asksLatest`, `given` — the requests that matter, and the answer as the method has
  it.
* `Service.handle_of_ok`, `handle_of_error`, `handle_of_asksLatest`, `handle_of_reads` — **everything that
  a request can do**.
* `Service.outcomes` — what the cycles that requests ask for come to, told from the source alone.
* `Cycles.Tells` — counter and published table agree with these outcomes; `Tells.fail` and
  `Tells.succeed` are its step lemmas, and `Service.tells_handleAll` the run.
* `Service.answer_of_asksTable`, `answer_of_asksLatest`, `quiet_of_reads` — what a request is answered by
  a service whose state tells the outcomes so far.
* `Service.latest_is_last_success` — **the answers, for every sequence of requests**.

Two things do not hold: the answer to a `HEAD` request has no table in it, and generations are not
numbers without end (`head_has_no_table`).
-/

namespace RequestBoard

/-! ## Requests -/

namespace Request

/-- Whether the request asks for a fresh table. -/
def asksTable (request : Request) : Bool :=
  request.path == "/api/requests" && (request.method == "GET" || request.method == "HEAD")

/-- Whether the request asks for the table published last. -/
def asksLatest (request : Request) : Bool :=
  request.path == "/api/requests/latest" && (request.method == "GET" || request.method == "HEAD")

/-- An answer as the request is given it: the body is left out if the method is `HEAD`. -/
def given (request : Request) (answer : Answer) : Answer :=
  if request.method = "HEAD" then { answer with body := "" } else answer

@[simp] theorem status_given (request : Request) (answer : Answer) :
    (request.given answer).status = answer.status := by
  unfold given
  split <;> rfl

end Request

namespace Service

variable {σ : Type} {views : ViewNames} {source : Source σ} {request : Request} {state later : σ}

/-! ## One request -/

theorem react_of_route {route : Route} (hpath : Route.ofPath? request.path = some route)
    (hmethod : request.method = "GET" ∨ request.method = "HEAD") :
    react request =
      if request.method = "HEAD" then (reactionOf route).withoutBody else reactionOf route := by
  rw [react, hpath]
  rcases hmethod with h | h <;> simp [h]

theorem react_of_asksTable (h : request.asksTable = true) :
    ∃ answer, react request = .renders answer ∧
      (∀ published, answer (.ok published) = request.given (ofPublished published)) ∧
      ∀ fault, answer (.error fault) = request.given (.ofFault fault) := by
  simp only [Request.asksTable, Bool.and_eq_true, Bool.or_eq_true, beq_iff_eq] at h
  have hroute : Route.ofPath? request.path = some .requests := by rw [h.1]; rfl
  rw [react_of_route hroute h.2]
  unfold Request.given
  split
  · exact ⟨_, rfl, fun _ => rfl, fun _ => rfl⟩
  · exact ⟨_, rfl, fun _ => rfl, fun _ => rfl⟩

theorem react_of_asksLatest (h : request.asksLatest = true) :
    react request = .reads fun latest => request.given (latest.elim .notLoaded ofPublished) := by
  simp only [Request.asksLatest, Bool.and_eq_true, Bool.or_eq_true, beq_iff_eq] at h
  have hroute : Route.ofPath? request.path = some .latest := by rw [h.1]; rfl
  rw [react_of_route hroute h.2]
  unfold Request.given
  split <;> rfl

theorem path_of_requests {path : String} (h : Route.ofPath? path = some .requests) :
    path = "/api/requests" := by
  unfold Route.ofPath? at h
  split at h
  case h_4 => rfl
  all_goals exact absurd h (by simp)

/-- Only a request for a fresh table has a cycle run. -/
theorem react_of_not_asksTable (h : request.asksTable = false) :
    ∃ answer, react request = .reads answer := by
  cases hroute : Route.ofPath? request.path with
  | none => exact ⟨_, by rw [react, hroute]⟩
  | some route =>
    by_cases hmethod : request.method = "GET" ∨ request.method = "HEAD"
    · rw [react_of_route hroute hmethod]
      cases route with
      | requests =>
        -- the one resource that needs a cycle, and both methods of it ask for a fresh table
        have hasks : request.asksTable = true := by
          simpa [Request.asksTable, path_of_requests hroute] using hmethod
        rw [h] at hasks
        exact absurd hasks (by simp)
      | index | script | health | latest =>
        split
        · exact ⟨_, rfl⟩
        · exact ⟨_, rfl⟩
    · rw [not_or] at hmethod
      refine ⟨fun _ => .methodNotAllowed, ?_⟩
      simp only [react, hroute, beq_iff_eq, if_neg hmethod.1, if_neg hmethod.2]

variable (cycles : Cycles)

theorem handle_of_ok (h : request.asksTable = true) {table : Table}
    (hload : Cycles.load views source state = (.ok table, later)) :
    handle views source request cycles state =
      (request.given (ofPublished ⟨cycles.begin.1, table⟩),
        (cycles.begin.2.publish ⟨cycles.begin.1, table⟩).2, later) := by
  obtain ⟨answer, hreact, hok, -⟩ := react_of_asksTable h
  simp only [handle, hreact, Cycles.run_of_ok hload, hok]

theorem handle_of_error (h : request.asksTable = true) {fault : Fault}
    (hload : Cycles.load views source state = (.error fault, later)) :
    handle views source request cycles state =
      (request.given (.ofFault fault), cycles.begin.2, later) := by
  obtain ⟨answer, hreact, -, herror⟩ := react_of_asksTable h
  simp only [handle, hreact, Cycles.run_of_error hload, herror]

theorem handle_of_asksLatest (h : request.asksLatest = true) :
    handle views source request cycles state =
      (request.given (cycles.latest.elim .notLoaded ofPublished), cycles, state) := by
  simp only [handle, react_of_asksLatest h]

/-- Any other request leaves everything as it is, whatever the source would answer. -/
theorem handle_of_reads (h : request.asksTable = false) :
    (handle views source request cycles state).2 = (cycles, state) := by
  obtain ⟨answer, hreact⟩ := react_of_not_asksTable h
  simp only [handle, hreact]

/-- A request for a fresh table takes a generation, and no other request does. -/
theorem issued_handle :
    (handle views source request cycles state).2.1.issued =
      if request.asksTable then cycles.issued + 1 else cycles.issued := by
  cases h : request.asksTable with
  | false => rw [handle_of_reads cycles h]; rfl
  | true =>
    rcases hload : Cycles.load views source state with ⟨_ | table, later⟩
    · rw [handle_of_error cycles h hload]; rfl
    · rw [handle_of_ok cycles h hload, Cycles.issued_publish]; rfl

theorem status_ofPublished (published : Published) : (ofPublished published).status = 200 := rfl

theorem status_ofFault (fault : Fault) : (Answer.ofFault fault).status ≠ 200 := by
  cases fault <;> simp [Answer.ofFault, Answer.error, Answer.json]

/-! ## Many requests -/

@[simp] theorem handleAll_nil : handleAll views source [] cycles state = ([], cycles, state) := rfl

theorem handleAll_cons (rest : List Request) :
    handleAll views source (request :: rest) cycles state =
      ((handle views source request cycles state).1 ::
          (handleAll views source rest (handle views source request cycles state).2.1
            (handle views source request cycles state).2.2).1,
        (handleAll views source rest (handle views source request cycles state).2.1
          (handle views source request cycles state).2.2).2) := by
  rw [handleAll]

theorem length_handleAll (views : ViewNames) (source : Source σ) (requests : List Request)
    (cycles : Cycles) (state : σ) :
    (handleAll views source requests cycles state).1.length = requests.length := by
  induction requests generalizing cycles state with
  | nil => rfl
  | cons request rest ih => rw [handleAll_cons, List.length_cons, ih, List.length_cons]

/-- Later requests are handled after the earlier ones and do not change their answers. -/
theorem handleAll_append (requests rest : List Request) (cycles : Cycles) (state : σ) :
    handleAll views source (requests ++ rest) cycles state =
      ((handleAll views source requests cycles state).1 ++
          (handleAll views source rest (handleAll views source requests cycles state).2.1
            (handleAll views source requests cycles state).2.2).1,
        (handleAll views source rest (handleAll views source requests cycles state).2.1
          (handleAll views source requests cycles state).2.2).2) := by
  induction requests generalizing cycles state with
  | nil => rfl
  | cons request requests ih =>
    rw [List.cons_append, handleAll_cons, ih, handleAll_cons, List.cons_append]

/-- The requests for a fresh table are numbered, in words of 64 bits. -/
theorem issued_handleAll (requests : List Request) (cycles : Cycles) (state : σ) :
    (handleAll views source requests cycles state).2.1.issued =
      cycles.issued + UInt64.ofNat (requests.countP Request.asksTable) := by
  induction requests generalizing cycles state with
  | nil => simp
  | cons request rest ih =>
    rw [handleAll_cons, ih, issued_handle, List.countP_cons]
    split
    · rw [UInt64.ofNat_add]
      grind
    · simp

/-! ## What cycles come to -/

/-- What the cycles that requests ask for come to, in order, and the source after them.  Requests that
ask for no fresh table do not count. -/
def outcomes (views : ViewNames) (source : Source σ) :
    List Request → σ → List (Except Fault Table) × σ
  | [], state => ([], state)
  | request :: rest, state =>
    if request.asksTable then
      let (outcome, later) := Cycles.load views source state
      let (more, last) := outcomes views source rest later
      (outcome :: more, last)
    else outcomes views source rest state

theorem outcomes_of_asksTable (h : request.asksTable = true) {outcome : Except Fault Table}
    (hload : Cycles.load views source state = (outcome, later)) (rest : List Request) :
    outcomes views source (request :: rest) state =
      (outcome :: (outcomes views source rest later).1, (outcomes views source rest later).2) := by
  rw [outcomes, if_pos h, hload]

theorem outcomes_of_reads (h : request.asksTable = false) (rest : List Request) :
    outcomes views source (request :: rest) state = outcomes views source rest state := by
  rw [outcomes, h]
  rfl

theorem length_outcomes (views : ViewNames) (source : Source σ) (requests : List Request) (state : σ) :
    (outcomes views source requests state).1.length = requests.countP Request.asksTable := by
  induction requests generalizing state with
  | nil => rfl
  | cons request rest ih =>
    cases h : request.asksTable with
    | true =>
      rw [outcomes_of_asksTable h rfl, List.length_cons, ih, List.countP_cons_of_pos h]
    | false =>
      rw [outcomes_of_reads h, ih, List.countP_cons_of_neg (by simp [h])]

/-- A registry without requests makes the empty table. -/
theorem load_empty (views : ViewNames) (later : List Reply) :
    Cycles.load views Fetch.ofReplies (.ok {} :: later) = (.ok (Table.ofStore ∅), later) := by
  rw [Cycles.load, Fetch.run, Fetch.Stage.run_of_done rfl rfl]
  rfl

/-- A registry that cannot be read makes none. -/
theorem load_error (views : ViewNames) (fault : Fault) (later : List Reply) :
    Cycles.load views Fetch.ofReplies (.error fault :: later) = (.error fault, later) := by
  rw [Cycles.load, Fetch.run, Fetch.Stage.run_of_done rfl rfl]
  rfl

end Service

/-! ## Counter and published table -/

/-- None of the outcomes is a table. -/
def AllFail (outcomes : List (Except Fault Table)) : Prop :=
  ∀ outcome ∈ outcomes, ∃ fault, outcome = .error fault

theorem allFail_nil : AllFail [] := fun _ houtcome => absurd houtcome List.not_mem_nil

theorem allFail_concat_error {outcomes : List (Except Fault Table)} {fault : Fault} :
    AllFail (outcomes ++ [.error fault]) ↔ AllFail outcomes := by
  simp [AllFail, or_imp, forall_and]

theorem not_allFail_of_mem {outcomes : List (Except Fault Table)} {table : Table}
    (h : .ok table ∈ outcomes) : ¬ AllFail outcomes := by
  intro hfail
  obtain ⟨fault, hfault⟩ := hfail _ h
  cases hfault

/-- The table is that of the last outcome that is one, and its generation is the number of that
outcome. -/
def Published.IsLastOf (published : Published) (outcomes : List (Except Fault Table)) : Prop :=
  ∃ earlier later, outcomes = earlier ++ .ok published.table :: later ∧
    published.generation.toNat = earlier.length + 1 ∧ AllFail later

theorem Published.IsLastOf.concat_error {published : Published}
    {outcomes : List (Except Fault Table)} (h : published.IsLastOf outcomes) (fault : Fault) :
    published.IsLastOf (outcomes ++ [.error fault]) := by
  obtain ⟨earlier, later, rfl, hgeneration, hlater⟩ := h
  exact ⟨earlier, later ++ [.error fault], by rw [List.append_assoc, List.cons_append],
    hgeneration, allFail_concat_error.2 hlater⟩

namespace Cycles

/-- The shared state tells the outcomes of the cycles that have run: it counts them, and the last one
that is a table is published.  Once the generations are used up, they no longer say which table is the
last one. -/
structure Tells (cycles : Cycles) (outcomes : List (Except Fault Table)) : Prop where
  issued : cycles.issued = UInt64.ofNat outcomes.length
  missing : cycles.latest = none ↔ AllFail outcomes
  latest : outcomes.length < UInt64.size →
    ∀ published, cycles.latest = some published → published.IsLastOf outcomes

theorem tells_nil : Tells {} [] where
  issued := rfl
  missing := ⟨fun _ => allFail_nil, fun _ => rfl⟩
  latest := fun _ _ hlatest => absurd hlatest (Option.some_ne_none _).symm

variable {cycles : Cycles} {past : List (Except Fault Table)}

/-- The next generation is the number of the next cycle. -/
theorem Tells.begin (h : cycles.Tells past) : cycles.begin.1 = UInt64.ofNat (past.length + 1) := by
  rw [UInt64.ofNat_add, ← h.issued]
  rfl

/-- A cycle that fails uses up a number and leaves what is published. -/
theorem Tells.fail (h : cycles.Tells past) (fault : Fault) :
    cycles.begin.2.Tells (past ++ [.error fault]) where
  issued := by
    rw [List.length_append]
    exact h.begin
  missing := by
    rw [allFail_concat_error]
    exact h.missing
  latest := by
    intro hlt published hlatest
    rw [List.length_append] at hlt
    exact (h.latest (by omega) published hlatest).concat_error fault

/-- While the generations last, the next one is larger than that of what is published. -/
theorem Tells.le_begin (h : cycles.Tells past) (hlt : past.length + 1 < UInt64.size)
    {current : Published} (hcurrent : cycles.latest = some current) :
    current.generation ≤ cycles.begin.1 := by
  obtain ⟨earlier, later, rfl, hgeneration, -⟩ := h.latest (by omega) current hcurrent
  rw [h.begin, UInt64.le_iff_toNat_le, UInt64.toNat_ofNat_of_lt' hlt, hgeneration]
  simp

/-- A cycle that succeeds publishes its table, unless generations are used up. -/
theorem Tells.succeed (h : cycles.Tells past) (table : Table) :
    (cycles.begin.2.publish ⟨cycles.begin.1, table⟩).2.Tells (past ++ [.ok table]) where
  issued := by
    rw [issued_publish, List.length_append]
    exact h.begin
  missing := by
    refine iff_of_false ?_ (not_allFail_of_mem (List.mem_append_right _ (List.mem_singleton_self _)))
    rw [latest_publish]
    split
    · simp
    · split <;> simp
  latest := by
    intro hlt published hpublished
    rw [List.length_append] at hlt
    -- whatever is published has a smaller generation, so that it is replaced
    have hlatest : (cycles.begin.2.publish ⟨cycles.begin.1, table⟩).2.latest =
        some ⟨cycles.begin.1, table⟩ := by
      rw [latest_publish, show cycles.begin.2.latest = cycles.latest from rfl]
      cases hcurrent : cycles.latest with
      | none => rfl
      | some current => exact if_pos (h.le_begin hlt hcurrent)
    obtain rfl := Option.some.inj (hlatest.symm.trans hpublished)
    refine ⟨past, [], rfl, ?_, allFail_nil⟩
    rw [h.begin]
    exact UInt64.toNat_ofNat_of_lt' hlt

end Cycles

namespace Service

variable {σ : Type} {views : ViewNames} {source : Source σ} {request : Request} {state later : σ}
  {cycles : Cycles} {past : List (Except Fault Table)}

/-- **Counter and published table always tell the outcomes of the cycles that requests have asked
for**, and the source has answered the questions of these cycles and no others. -/
theorem tells_handleAll (views : ViewNames) (source : Source σ) (requests : List Request) (state : σ)
    (h : cycles.Tells past) :
    (handleAll views source requests cycles state).2.1.Tells
        (past ++ (outcomes views source requests state).1) ∧
      (handleAll views source requests cycles state).2.2 =
        (outcomes views source requests state).2 := by
  -- every request adds what its cycle comes to, if it has one run, at the end of the past
  induction requests generalizing cycles past state with
  | nil =>
    rw [outcomes, List.append_nil]
    exact ⟨h, rfl⟩
  | cons request rest ih =>
    rw [handleAll_cons]
    cases hasks : request.asksTable with
    | false =>
      rw [handle_of_reads cycles hasks, outcomes_of_reads hasks]
      exact ih state h
    | true =>
      rcases hload : Cycles.load views source state with ⟨fault | table, later⟩
      · rw [handle_of_error cycles hasks hload, outcomes_of_asksTable hasks hload,
          List.append_cons]
        exact ih later (h.fail fault)
      · rw [handle_of_ok cycles hasks hload, outcomes_of_asksTable hasks hload,
          List.append_cons]
        exact ih later (h.succeed table)

variable {answer : Answer} {cycles' : Cycles}

/-- A request for a fresh table takes the next number and is answered with its own table, or with the
fault that keeps it from having one. -/
theorem answer_of_asksTable (h : cycles.Tells past) (hasks : request.asksTable = true)
    (hhandle : handle views source request cycles state = (answer, cycles', later)) :
    cycles'.issued = UInt64.ofNat (past.length + 1) ∧
    (answer.status = 200 ↔ ∃ table, (Cycles.load views source state).1 = .ok table) ∧
    ∀ table, (Cycles.load views source state).1 = .ok table →
      answer = request.given (ofPublished ⟨UInt64.ofNat (past.length + 1), table⟩) := by
  rcases hload : Cycles.load views source state with ⟨fault | own, rest⟩
  · rw [handle_of_error cycles hasks hload] at hhandle
    cases hhandle
    refine ⟨h.begin, ?_, fun table htable => by cases htable⟩
    rw [Request.status_given]
    exact iff_of_false (status_ofFault fault) (by simp)
  · rw [handle_of_ok cycles hasks hload] at hhandle
    cases hhandle
    refine ⟨?_, ?_, fun table htable => ?_⟩
    · rw [Cycles.issued_publish]
      exact h.begin
    · rw [Request.status_given]
      exact iff_of_true (status_ofPublished _) ⟨own, rfl⟩
    · obtain rfl := Except.ok.inj htable
      rw [h.begin]

/-- A request for the latest table is answered with the last table that a cycle has come to. -/
theorem answer_of_asksLatest (h : cycles.Tells past) (hasks : request.asksLatest = true)
    (hhandle : handle views source request cycles state = (answer, cycles', later)) :
    (answer.status = 404 ↔ AllFail past) ∧
    (¬ AllFail past → ∃ published, answer = request.given (ofPublished published) ∧
      (past.length < UInt64.size → published.IsLastOf past)) := by
  rw [handle_of_asksLatest cycles hasks] at hhandle
  cases hhandle
  rw [Request.status_given, ← h.missing]
  cases hlatest : cycles.latest with
  | none => exact ⟨⟨fun _ => rfl, fun _ => rfl⟩, fun hsome => absurd rfl hsome⟩
  | some published =>
    refine ⟨?_, fun _ => ⟨published, rfl, fun hlt => h.latest hlt published hlatest⟩⟩
    rw [Option.elim_some, status_ofPublished]
    simp

/-- Any other request is answered without the document store. -/
theorem quiet_of_reads (hasks : request.asksTable = false)
    (hhandle : handle views source request cycles state = (answer, cycles', later)) :
    cycles' = cycles ∧ later = state ∧
    ∀ notes, (handle views source.noting request cycles (state, notes)).2.2 = (state, notes) := by
  have hsame : (handle views source request cycles state).2 = (cycles, state) :=
    handle_of_reads cycles hasks
  rw [hhandle] at hsame
  cases hsame
  exact ⟨rfl, rfl, fun notes => by rw [handle_of_reads cycles hasks]⟩

/-- **The answers tell the history.**  Take any request of any sequence that a new service handles.
What it is answered depends on the requests before it, and no later request changes that.

* The `n`-th request for a fresh table takes generation `n`, whether the earlier ones have failed or not;
  generations are words of 64 bits.  It is answered with status 200 exactly if its own cycle succeeds,
  and then with this generation and the table of that cycle.
* A request for the latest table is answered with status 404 exactly if all earlier cycles have failed.
  Otherwise it is answered with a table that has been published, and as long as the generations last that
  is the table of the last cycle that has not failed, under that cycle's generation.
* Any other request, and a request for the latest table too, asks the document store nothing and leaves
  counter and published table as they are.

A `HEAD` request is answered like a `GET` request, but without the body. -/
theorem latest_is_last_success (views : ViewNames) (source : Source σ) (state : σ)
    (before : List Request) (request : Request) (after : List Request) :
    ∃ earlier current answers cycles answer cycles' current' later,
      outcomes views source before state = (earlier, current) ∧
      earlier.length = before.countP Request.asksTable ∧
      handleAll views source before {} state = (answers, cycles, current) ∧
      handle views source request cycles current = (answer, cycles', current') ∧
      (handleAll views source (before ++ request :: after) {} state).1 = answers ++ answer :: later ∧
      answers.length = before.length ∧
      (request.asksTable = true →
        cycles'.issued = UInt64.ofNat (earlier.length + 1) ∧
        (answer.status = 200 ↔ ∃ table, (Cycles.load views source current).1 = .ok table) ∧
        ∀ table, (Cycles.load views source current).1 = .ok table →
          answer = request.given (ofPublished ⟨UInt64.ofNat (earlier.length + 1), table⟩)) ∧
      (request.asksLatest = true →
        (answer.status = 404 ↔ AllFail earlier) ∧
        (¬ AllFail earlier → ∃ published,
          answer = request.given (ofPublished published) ∧
          (earlier.length < UInt64.size → published.IsLastOf earlier))) ∧
      (request.asksTable = false →
        cycles' = cycles ∧ current' = current ∧
        ∀ notes, (handle views source.noting request cycles (current, notes)).2.2 =
          (current, notes)) := by
  have hall := tells_handleAll views source before state Cycles.tells_nil
  have hlength := length_outcomes views source before state
  have hanswers := length_handleAll views source before {} state
  rcases hbefore : handleAll views source before {} state with ⟨answers, cycles, current⟩
  rcases houtcomes : outcomes views source before state with ⟨earlier, last⟩
  rcases hhandle : handle views source request cycles current with ⟨answer, cycles', current'⟩
  rw [hbefore, houtcomes, List.nil_append] at hall
  rw [houtcomes] at hlength
  rw [hbefore] at hanswers
  obtain ⟨htells, hcurrent⟩ := hall
  obtain rfl : current = last := hcurrent
  exact ⟨earlier, current, answers, cycles, answer, cycles', current',
    (handleAll views source after cycles' current').1, rfl, hlength, rfl, hhandle,
    by rw [handleAll_append, hbefore, handleAll_cons, hhandle], hanswers,
    fun hasks => answer_of_asksTable htells hasks hhandle,
    fun hasks => answer_of_asksLatest htells hasks hhandle,
    fun hasks => quiet_of_reads hasks hhandle⟩

/-- A cycle succeeds, the next one fails: the table of the first one is still there. -/
theorem latest_after_failure :
    ∃ published,
      (handleAll {} Fetch.ofReplies
        [⟨"GET", "/api/requests"⟩, ⟨"GET", "/api/requests"⟩, ⟨"GET", "/api/requests/latest"⟩] {}
        [.ok {}, .error (.network "down")]).1[2]? = some (ofPublished published) ∧
      published.IsLastOf [.ok (Table.ofStore ∅), .error (.network "down")] := by
  obtain ⟨earlier, current, answers, cycles, answer, cycles', current', later, houtcomes, -, -, -,
    hall, hanswers, -, hlatest, -⟩ :=
    latest_is_last_success {} Fetch.ofReplies [.ok {}, .error (.network "down")]
      [⟨"GET", "/api/requests"⟩, ⟨"GET", "/api/requests"⟩] ⟨"GET", "/api/requests/latest"⟩ []
  rw [outcomes_of_asksTable (by decide +kernel) (load_empty _ _),
    outcomes_of_asksTable (by decide +kernel) (load_error _ _ _)] at houtcomes
  cases houtcomes
  obtain ⟨published, hanswer, hlast⟩ :=
    (hlatest (by decide +kernel)).2 (not_allFail_of_mem (List.mem_cons_self ..))
  refine ⟨published, ?_, hlast (by decide)⟩
  rw [List.cons_append, List.cons_append, List.nil_append] at hall
  rw [hall, List.getElem?_append_right (by rw [hanswers]; decide), hanswers, hanswer]
  rfl

/-- The answer to a `HEAD` request has no table in it; and the number after the last one is zero. -/
theorem head_has_no_table :
    (Cycles.load {} Fetch.ofReplies [.ok {}]).1 = .ok (Table.ofStore ∅) ∧
    (handleAll {} Fetch.ofReplies [⟨"HEAD", "/api/requests"⟩] {} [.ok {}]).1 =
      [{ ofPublished ⟨1, Table.ofStore ∅⟩ with body := "" }] ∧
    (ofPublished ⟨1, Table.ofStore ∅⟩).body ≠ "" ∧
    (handleAll {} Fetch.ofReplies (List.replicate UInt64.size ⟨"GET", "/api/requests"⟩) {} []).2.1.issued
      = 0 := by
  have hget : Request.asksTable ⟨"GET", "/api/requests"⟩ = true := by decide +kernel
  have hhead : Request.asksTable ⟨"HEAD", "/api/requests"⟩ = true := by decide +kernel
  refine ⟨?_, ?_, ?_, ?_⟩
  · rw [load_empty]
  · rw [handleAll_cons, handle_of_ok {} hhead (load_empty _ [])]
    rfl
  · decide +kernel
  · rw [issued_handleAll, List.countP_replicate, if_pos hget]
    rfl

end Service

end RequestBoard
