import RequestBoard.Proofs.Client.Requests
import RequestBoard.Proofs.Cycles.Loading
import RequestBoard.Proofs.Service.LastSuccess

/-!
# The status of an answer tells what has failed

A request for a fresh table can fail in the document store, which a gateway error reports, or on rows that
cannot be merged, which an internal error does.  The status is chosen at the very end from the fault
alone; here it is told from what the document store has delivered.

* `Delivery.Fails`, `Delivery.rows` — what can be wrong with a delivery, and the rows that it brings.
* `Client.read_of_fails`, `read_of_not_fails`, `rowsOf_read` — how a delivery is read.
* `Client.deliver`, `watching` — the client with notes of what became of every question.
* `Service.status_of_read`, `status_of_merge` — **the two kinds of faults** and their statuses.
* `Service.status_tells_what_failed` — **the result, for every document store**.
-/

namespace RequestBoard

/-! ## Deliveries -/

namespace Delivery

/-- The body of an answer; answers of some statuses end with their header. -/
def content (status : Nat) (body : Bytes) : Bytes := if Client.hasNoBody status then [] else body

/-- What can be wrong with a delivery. -/
inductive Fails : Delivery → Prop where
  /-- No answer came. -/
  | lost (cause : String) : Fails (.lost cause)
  /-- The answer has a status outside 200–299, whatever its body spells. -/
  | refused (status : Nat) (body : Bytes) (hstatus : ¬ (200 ≤ status ∧ status < 300)) :
    Fails (.answered status body)
  /-- The answer has a status from 200 to 299 and a body that spells no response. -/
  | unreadable (status : Nat) (body : Bytes) (hstatus : 200 ≤ status ∧ status < 300)
    (hbody : View.Response.ofBody? (content status body) = none) : Fails (.answered status body)

/-- The rows that a delivery brings. -/
def rows : Delivery → List View.Row
  | .lost _ => []
  | .answered status body =>
    if 200 ≤ status ∧ status < 300 then
      (View.Response.ofBody? (content status body)).elim [] fun response => response.rows
    else []

/-- A delivery with something wrong brings no rows. -/
theorem Fails.rows_eq {delivery : Delivery} (h : delivery.Fails) : delivery.rows = [] := by
  cases h with
  | lost cause => rfl
  | refused status body hstatus => rw [rows, if_neg hstatus]
  | unreadable status body hstatus hbody =>
    rw [rows, if_pos hstatus, hbody]
    rfl

/-- An answer with a body that spells a response. -/
def spelling (status : Nat) (response : View.Response) : Delivery :=
  .answered status (Utf8.encode response.encode.write)

end Delivery

namespace Client

theorem read_refused (view : String) {status : Nat} (h : ¬ (200 ≤ status ∧ status < 300))
    (body : Bytes) :
    read view (.answered status body) = .error (lost view "") ∨
      ∃ text, read view (.answered status body) = .error (.api status text) := by
  by_cases hinterim : isInterim status = true
  · refine Or.inl ?_
    simp only [read, if_pos hinterim]
  · have hhundreds : (status / 100 != 2) = true := by
      rw [bne_iff_ne]
      omega
    refine Or.inr ⟨Unicode.decode (Delivery.content status body), ?_⟩
    simp only [read, if_neg hinterim, hhundreds, if_true, Delivery.content]

theorem read_success (view : String) {status : Nat} (h : 200 ≤ status ∧ status < 300)
    (body : Bytes) :
    read view (.answered status body) =
      match View.Response.ofBody? (Delivery.content status body) with
      | some response => .ok response
      | none => .error (.parse ("Failed to parse view '" ++ view ++ "' response: ")) := by
  have hhundreds : status / 100 = 2 := by omega
  have hinterim : isInterim status = false := by simp [isInterim, hhundreds]
  have hsuccess : (status / 100 != 2) = false := by simp [hhundreds]
  simp only [read, hinterim, hsuccess, Bool.false_eq_true, if_false]
  rfl

/-- A delivery with something wrong is read as a fault, one that is reported as the document store's. -/
theorem read_of_fails {delivery : Delivery} (h : delivery.Fails) (view : String) :
    ∃ fault, read view delivery = .error fault ∧ (Answer.ofFault fault).status = 502 := by
  cases h with
  | lost cause => exact ⟨_, rfl, rfl⟩
  | refused status body hstatus =>
    rcases read_refused view hstatus body with hread | ⟨text, hread⟩
    · exact ⟨_, hread, rfl⟩
    · exact ⟨_, hread, rfl⟩
  | unreadable status body hstatus hbody =>
    rw [read_success view hstatus, hbody]
    exact ⟨_, rfl, rfl⟩

/-- A delivery with nothing wrong is read as a response, with the rows that it brings. -/
theorem read_of_not_fails {delivery : Delivery} (h : ¬ delivery.Fails) (view : String) :
    ∃ response, read view delivery = .ok response ∧ delivery.rows = response.rows := by
  cases delivery with
  | lost cause => exact absurd (.lost cause) h
  | answered status body =>
    by_cases hstatus : 200 ≤ status ∧ status < 300
    · rw [read_success view hstatus, Delivery.rows, if_pos hstatus]
      cases hbody : View.Response.ofBody? (Delivery.content status body) with
      | some response => exact ⟨response, rfl, rfl⟩
      | none => exact absurd (.unreadable status body hstatus hbody) h
    · exact absurd (.refused status body hstatus) h

theorem isAnswer_read_iff {delivery : Delivery} {view : String} :
    Fetch.IsAnswer (read view delivery) ↔ ¬ delivery.Fails := by
  constructor
  · rintro ⟨response, hread⟩ hfails
    obtain ⟨fault, hfault, -⟩ := read_of_fails hfails view
    rw [hread] at hfault
    cases hfault
  · intro hgood
    obtain ⟨response, hread, -⟩ := read_of_not_fails hgood view
    exact ⟨response, hread⟩

/-- A delivery is read for its rows. -/
theorem rowsOf_read (view : String) (delivery : Delivery) :
    Fetch.rowsOf (read view delivery) = delivery.rows := by
  by_cases hfails : delivery.Fails
  · obtain ⟨fault, hread, -⟩ := read_of_fails hfails view
    rw [hread, hfails.rows_eq]
    rfl
  · obtain ⟨response, hread, hrows⟩ := read_of_not_fails hfails view
    rw [hread, hrows]
    rfl

/-! ## What became of questions -/

variable {σ : Type} (client : Client) (server : Server σ)

/-- What becomes of a question: the delivery for its request.  A question that no request can be made of
is lost. -/
def deliver (ask : Ask) (state : σ) : Delivery × σ :=
  match client.request? ask with
  | none => (.lost "", state)
  | some request => server request state

theorem source_eq_deliver (ask : Ask) (state : σ) :
    client.source server ask state =
      (read ask.view (client.deliver server ask state).1, (client.deliver server ask state).2) := by
  unfold source deliver
  cases client.request? ask <;> rfl

/-- The client as a source, with notes of what became of every question, the latest at the end. -/
def watching : Source (σ × List (Ask × Delivery)) := fun ask state =>
  (read ask.view (client.deliver server ask state.1).1,
    ((client.deliver server ask state.1).2,
      state.2 ++ [(ask, (client.deliver server ask state.1).1)]))

/-- A server that delivers off a list, whatever it is sent. -/
def ofDeliveries : Server (List Delivery) := fun _ deliveries =>
  match deliveries with
  | [] => (.lost "", [])
  | delivery :: later => (delivery, later)

/-- The answers that deliveries amount to. -/
def answers (issued : List (Ask × Delivery)) : List (Ask × Reply) :=
  issued.map fun entry => (entry.1, read entry.1.view entry.2)

/-- The rows that the delivery at a position has brought. -/
def delivered (issued : List (Ask × Delivery)) (i : Nat) : List View.Row :=
  (issued[i]?).elim [] fun entry => entry.2.rows

theorem rowsAt_answers (issued : List (Ask × Delivery)) (i : Nat) :
    Fetch.rowsAt (answers issued) i = delivered issued i := by
  rw [Fetch.rowsAt, answers, List.getElem?_map, delivered]
  cases issued[i]? with
  | none => rfl
  | some entry => exact rowsOf_read entry.1.view entry.2

theorem isAnswer_answers_iff (issued : List (Ask × Delivery)) :
    (∀ entry ∈ answers issued, Fetch.IsAnswer entry.2) ↔ ∀ entry ∈ issued, ¬ entry.2.Fails := by
  rw [answers, List.forall_mem_map]
  exact forall₂_congr fun entry _ => isAnswer_read_iff

/-- Taking notes of the deliveries changes nothing about loading a table, and the answers that they amount
to go one of the ways of a run. -/
theorem exists_course_of_deliveries (views : ViewNames) (state : σ) :
    ∃ issued batches, Fetch.Course views (answers issued) batches ∧
      Cycles.load views (client.source server) state =
        (Cycles.tableOf batches, (Cycles.load views (client.source server) state).2) ∧
      Cycles.load views (client.watching server) (state, []) =
        (Cycles.tableOf batches, (Cycles.load views (client.source server) state).2, issued) := by
  -- the notes of the source are the notes of the deliveries, read
  have hsame := Fetch.run_of_proj views (client.source server).noting (client.watching server)
    (fun state => (state.1, answers state.2))
    (fun ask state => by simp [Source.noting, source_eq_deliver, watching, answers])
    .registry (state, [])
  obtain ⟨log, hlog, hnotes⟩ :=
    Fetch.exists_dialogue_noting views (client.source server) .registry state
  rw [show answers [] = [] from rfl, hnotes] at hsame
  obtain ⟨hresult, hrest⟩ := Prod.mk.inj hsame
  obtain ⟨hstate, hissued⟩ := Prod.mk.inj hrest
  refine ⟨_, _, hissued ▸ hlog.course, rfl, ?_⟩
  rw [Cycles.load, Cycles.load, Fetch.run, Fetch.run, hresult, hstate]

end Client

/-! ## Statuses -/

namespace Service

/-- A fault that a delivery is read as comes from something wrong with the delivery. -/
theorem status_of_read {view : String} {delivery : Delivery} {fault : Fault}
    (h : Client.read view delivery = .error fault) :
    delivery.Fails ∧ (Answer.ofFault fault).status = 502 := by
  by_cases hfails : delivery.Fails
  · obtain ⟨other, hread, hstatus⟩ := Client.read_of_fails hfails view
    obtain rfl := Except.error.inj (hread.symm.trans h)
    exact ⟨hfails, hstatus⟩
  · obtain ⟨response, hread, -⟩ := Client.read_of_not_fails hfails view
    rw [hread] at h
    cases h

/-- A fault that batches are refused with is reported as internal. -/
theorem status_of_merge {primary secondary : List View.Row} {fault : Fault}
    (h : Store.merge primary secondary = .error fault) : (Answer.ofFault fault).status = 500 := by
  have hrow : ∀ (row : View.Row) batch index,
      (Answer.ofFault (row.fault batch index)).status = 500 := by
    intro row batch index
    unfold View.Row.fault
    cases row.id <;> rfl
  rcases Store.merge_eq_error_iff.1 h with hfirst | ⟨-, hfirst⟩
  · obtain ⟨before, row, after, -, -, -, rfl⟩ := hfirst
    exact hrow row _ _
  · obtain ⟨before, row, after, -, -, -, rfl⟩ := hfirst
    exact hrow row _ _

/-- A run whose answers lead to no table has failed in the document store or on its rows. -/
theorem status_of_load {views : ViewNames} {issued : List (Ask × Delivery)}
    {batches : Except Fault Batches} {fault : Fault}
    (hcourse : Fetch.Course views (Client.answers issued) batches)
    (hfault : Cycles.tableOf batches = .error fault) :
    (∃ entry ∈ issued, entry.2.Fails) ∧ (Answer.ofFault fault).status = 502 ∨
      (∀ entry ∈ issued, ¬ entry.2.Fails) ∧ (Answer.ofFault fault).status = 500 := by
  cases batches with
  | error cause =>
    obtain rfl : cause = fault := Except.error.inj hfault
    obtain ⟨ask, hlast⟩ := (hcourse.result_eq_error_iff cause).1 rfl
    obtain ⟨entry, hentry, hread⟩ := List.mem_map.1 (List.mem_of_getLast? hlast)
    have hread : Client.read entry.1.view entry.2 = .error cause := congrArg Prod.snd hread
    obtain ⟨hfails, hstatus⟩ := status_of_read hread
    exact Or.inl ⟨⟨entry, hentry, hfails⟩, hstatus⟩
  | ok batches =>
    obtain ⟨hanswers, -⟩ := (hcourse.result_eq_ok_iff batches).1 rfl
    refine Or.inr ⟨(Client.isAnswer_answers_iff issued).1 hanswers, ?_⟩
    exact status_of_merge (Table.ofBatches_eq_error_iff.1 hfault)

/-- **The status tells what has failed.**  Whatever the document store does, a request for a fresh table is
answered

* with 502 exactly if one of the questions that were asked has failed: it got no answer, or one with a
  status outside 200–299, or one that cannot be read;
* with 500 exactly if all questions that were asked have been answered, but some row of the registry batch
  or of the agent batch has no id, or a document that is neither absent nor null nor an object;
* and with 200 otherwise.

Unless it is answered with 200, the request leaves the published table as it was. -/
theorem status_tells_what_failed {σ : Type} (client : Client) (views : ViewNames) (server : Server σ)
    (cycles : Cycles) (state : σ) {request : Request} (hasks : request.asksTable = true) :
    ∃ issued answer cycles' later,
      handle views (client.source server) request cycles state = (answer, cycles', later) ∧
      handle views (client.watching server) request cycles (state, []) =
        (answer, cycles', later, issued) ∧
      (answer.status = 502 ↔ ∃ entry ∈ issued, entry.2.Fails) ∧
      (answer.status = 500 ↔ (∀ entry ∈ issued, ¬ entry.2.Fails) ∧
        ∃ row ∈ Client.delivered issued 0 ++ Client.delivered issued 2, row.IsBad) ∧
      (answer.status = 200 ↔ (∀ entry ∈ issued, ¬ entry.2.Fails) ∧
        ∀ row ∈ Client.delivered issued 0 ++ Client.delivered issued 2, ¬ row.IsBad) ∧
      (answer.status ≠ 200 → cycles'.latest = cycles.latest) := by
  obtain ⟨issued, batches, hcourse, hload, hwatched⟩ :=
    client.exists_course_of_deliveries server views state
  have htable := Cycles.exists_table_iff hcourse
  rw [Client.isAnswer_answers_iff, Client.rowsAt_answers, Client.rowsAt_answers] at htable
  cases hresult : Cycles.tableOf batches with
  | ok table =>
    rw [hresult] at hload hwatched
    obtain ⟨hgood, hrows⟩ := htable.1 ⟨table, hresult⟩
    refine ⟨issued, _, _, _, handle_of_ok cycles hasks hload, handle_of_ok cycles hasks hwatched, ?_⟩
    rw [Request.status_given, status_ofPublished]
    refine ⟨iff_of_false (by decide) ?_, iff_of_false (by decide) ?_, iff_of_true rfl ⟨hgood, hrows⟩,
      fun hne => absurd rfl hne⟩
    · rintro ⟨entry, hentry, hfails⟩
      exact hgood entry hentry hfails
    · rintro ⟨-, row, hrow, hbad⟩
      exact hrows row hrow hbad
  | error fault =>
    rw [hresult] at hload hwatched
    have hnone : ¬ ((∀ entry ∈ issued, ¬ entry.2.Fails) ∧
        ∀ row ∈ Client.delivered issued 0 ++ Client.delivered issued 2, ¬ row.IsBad) := by
      intro hgood
      obtain ⟨table, hok⟩ := htable.2 hgood
      rw [hresult] at hok
      cases hok
    refine ⟨issued, _, _, _, handle_of_error cycles hasks hload,
      handle_of_error cycles hasks hwatched, ?_⟩
    rw [Request.status_given]
    rcases status_of_load hcourse hresult with ⟨hfails, hstatus⟩ | ⟨hgood, hstatus⟩
    · rw [hstatus]
      refine ⟨iff_of_true rfl hfails, iff_of_false (by decide) ?_, iff_of_false (by decide) hnone,
        fun _ => rfl⟩
      rintro ⟨hgood, -⟩
      obtain ⟨entry, hentry, hfail⟩ := hfails
      exact hgood entry hentry hfail
    · rw [hstatus]
      refine ⟨iff_of_false (by decide) ?_, iff_of_true rfl ⟨hgood, ?_⟩,
        iff_of_false (by decide) hnone, fun _ => rfl⟩
      · rintro ⟨entry, hentry, hfail⟩
        exact hgood entry hentry hfail
      · by_contra hrows
        exact hnone ⟨hgood, fun row hrow hbad => hrows ⟨row, hrow, hbad⟩⟩

/-- The second question is refused, with a body that would spell a response, and the earlier table stays. -/
theorem status_tells_what_failed_of_second :
    ∃ issued answer cycles' later,
      handle {} ((Client.make "http://db" "d" "g").watching Client.ofDeliveries)
          ⟨"GET", "/api/requests"⟩ ⟨1, some ⟨1, Table.ofStore ∅⟩⟩
          ([.spelling 200 { rows := [{ id := some "a" }] }, .spelling 503 {}], []) =
        (answer, cycles', later, issued) ∧
      issued.length = 2 ∧ answer.status = 502 ∧
      cycles'.latest = some ⟨1, Table.ofStore ∅⟩ := by
  have hasks : Request.asksTable ⟨"GET", "/api/requests"⟩ = true := by decide +kernel
  obtain ⟨issued, answer, cycles', later, -, hwatched, hgateway, -, -, hkept⟩ :=
    status_tells_what_failed (Client.make "http://db" "d" "g") {} Client.ofDeliveries
      ⟨1, some ⟨1, Table.ofStore ∅⟩⟩
      [.spelling 200 { rows := [{ id := some "a" }] }, .spelling 503 {}] hasks
  have hload : Cycles.load {} ((Client.make "http://db" "d" "g").watching Client.ofDeliveries)
      ([.spelling 200 { rows := [{ id := some "a" }] }, .spelling 503 {}], []) =
      (.error (.api 503 (View.Response.encode {}).write), [],
        [(.registry {}, .spelling 200 { rows := [{ id := some "a" }] }),
          (.latest {} [.string "a"], .spelling 503 {})]) := by
    rw [Cycles.load, Fetch.run, Fetch.Stage.run_of_ask rfl rfl, Fetch.Stage.run_of_done rfl rfl]
    rfl
  have hissued := hwatched
  rw [handle_of_error _ hasks hload] at hissued
  cases hissued
  have hstatus : _ = 502 := hgateway.2
    ⟨_, List.mem_cons_of_mem _ (List.mem_cons_self ..), .refused 503 _ (by decide)⟩
  exact ⟨_, _, _, _, hwatched, rfl, hstatus, hkept (by rw [hstatus]; decide)⟩

end Service

end RequestBoard
