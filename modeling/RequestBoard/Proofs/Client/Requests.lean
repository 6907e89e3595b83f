import RequestBoard.Client
import RequestBoard.Proofs.Cycles.Single
import RequestBoard.Proofs.Fetch.Dialogue

/-!
# The requests of a cycle

A client turns a question without keys into a request for a whole view.  The registry is read that way;
that the view of the execution agents never is, rests on the run, which does not ask for its entries
unless it has keys for them.

* `Outgoing.IsFor`, `Outgoing.Reads`, `Outgoing.LooksUp` — a request to an address, for all of a view or
  for some keys of it.
* `Client.request?_eq_some` — **everything that a question can become**.
* `Fetch.Course.keyed` — a run asks for the registry first, and for nothing without keys after that.
* `Client.noting`, `exists_requests` — the requests that reach a server are those of the questions.
* `Client.cycle_reads_then_looks_up` — **the requests of a cycle**.
-/

namespace RequestBoard

/-! ## Requests -/

namespace Outgoing

variable (idna : Url.Host.Idna) (request : Outgoing) (address : String)

/-- The request goes to an address, with some pairs appended to the query. -/
def IsFor : Prop :=
  ∃ url pairs, Url.parse? idna address = some url ∧ request.url = url.appendPairs pairs

/-- The request is for all that there is at an address. -/
structure Reads : Prop where
  method : request.method = "GET"
  isFor : IsFor idna request address
  body : request.body = none

/-- The request is for what there is at an address under some keys. -/
structure LooksUp (keys : List Json) : Prop where
  method : request.method = "POST"
  isFor : IsFor idna request address
  body : request.body = some (.object [("keys", .array keys)])

end Outgoing

/-- A server answers a request, and may change while doing so. -/
abbrev Server (σ : Type) := Outgoing → σ → Delivery × σ

namespace Client

/-- The server with notes of every request that reaches it, the latest at the end. -/
def noting {σ : Type} (server : Server σ) : Server (σ × List Outgoing) :=
  fun request state =>
    ((server request state.1).1, (server request state.1).2, state.2 ++ [request])

/-- **All that a question can become.**  The request goes to the address of the view, for all of it if
the question has no keys, and otherwise for its keys. -/
theorem request?_eq_some {client : Client} {ask : Ask} {request : Outgoing}
    (h : client.request? ask = some request) :
    (ask.query.keys = [] ∧ request.Reads client.idna (client.viewUrl ask.view)) ∨
      (ask.query.keys ≠ [] ∧
        request.LooksUp client.idna (client.viewUrl ask.view) ask.query.keys) := by
  rw [request?, Option.bind_eq_bind, Option.bind_eq_some_iff] at h
  obtain ⟨url, hurl, hrequest⟩ := h
  by_cases hkeys : ask.query.keys = []
  · simp only [hkeys, List.isEmpty_nil, if_true, Option.some.injEq] at hrequest
    subst hrequest
    exact Or.inl ⟨hkeys, rfl, ⟨url, _, hurl, rfl⟩, rfl⟩
  · simp only [List.isEmpty_iff, if_neg hkeys, Option.some.injEq] at hrequest
    subst hrequest
    exact Or.inr ⟨hkeys, rfl, ⟨url, _, hurl, rfl⟩, rfl⟩

variable {σ : Type} (client : Client) (server : Server σ)

/-- A question that cannot be sent fails. -/
theorem source_of_none {ask : Ask} (h : client.request? ask = none) (state : σ) :
    client.source server ask state = (.error (lost ask.view ""), state) := by
  rw [source, h]

theorem source_of_some {ask : Ask} {request : Outgoing} (h : client.request? ask = some request)
    (state : σ) :
    client.source server ask state =
      (read ask.view (server request state).1, (server request state).2) := by
  rw [source, h]

/-- A question is noted as the request that it becomes, if any. -/
theorem source_noting (ask : Ask) (state : σ × List Outgoing) :
    client.source (noting server) ask state =
      ((client.source server ask state.1).1, (client.source server ask state.1).2,
        state.2 ++ (client.request? ask).toList) := by
  cases hrequest : client.request? ask with
  | none => simp [source_of_none, hrequest]
  | some request => simp [source_of_some _ _ hrequest, noting]

/-- A question that is answered has been sent. -/
theorem exists_request_of_answered {ask : Ask} {state : σ} {response : View.Response}
    (h : (client.source server ask state).1 = .ok response) :
    ∃ request, client.request? ask = some request := by
  cases hrequest : client.request? ask with
  | some request => exact ⟨request, rfl⟩
  | none =>
    rw [source_of_none client server hrequest] at h
    exact absurd h (by simp)

end Client

/-! ## The questions of a run -/

/-- **A run reads the registry and looks up the rest.**  It goes on only if the registry was read, and
whatever it asks after that has keys, none of them null. -/
theorem Fetch.Course.keyed {views : ViewNames} {log : List (Ask × Reply)}
    {result : Except Fault Batches} (h : Course views log result) :
    ∃ answer rest, log = (.registry views, answer) :: rest ∧
      (rest ≠ [] → ∃ response, answer = .ok response) ∧
      ∀ entry ∈ rest, entry.1.view = views.latest ∧ entry.1.query.keys ≠ [] ∧
        .null ∉ entry.1.query.keys := by
  cases h with
  | registryFails fault => exact ⟨_, [], rfl, by simp, by simp⟩
  | nothingRegistered first hfirst => exact ⟨_, [], rfl, by simp, by simp⟩
  | latestFails first keys hfirst hkeys fault =>
    exact ⟨_, _, rfl, by simp, by simp [Ask.latest, hkeys, hfirst.null_not_mem]⟩
  | nothingEntered first second keys hfirst hkeys hsecond =>
    exact ⟨_, _, rfl, by simp, by simp [Ask.latest, hkeys, hfirst.null_not_mem]⟩
  | agentsFail first second keys entryKeys hfirst hkeys hsecond hentryKeys fault =>
    exact ⟨_, _, rfl, by simp, by simp [Ask.latest, Ask.agents, hkeys, hentryKeys,
      hfirst.null_not_mem, hsecond.null_not_mem]⟩
  | complete first second third keys entryKeys hfirst hkeys hsecond hentryKeys =>
    exact ⟨_, _, rfl, by simp, by simp [Ask.latest, Ask.agents, hkeys, hentryKeys,
      hfirst.null_not_mem, hsecond.null_not_mem]⟩

namespace Client

/-! ## The requests of a run -/

variable {σ : Type} (client : Client) (views : ViewNames) (server : Server σ) (state : σ)

/-- Taking notes changes nothing about a run, and what is noted are the requests of a run's questions:
at first one for the registry, then some for keys. -/
theorem exists_requests :
    ∃ sent, Fetch.run views (client.source (noting server)) (state, []) =
        ((Fetch.run views (client.source server) state).1,
          (Fetch.run views (client.source server) state).2, sent) ∧
      (∀ request, sent.head? = some request →
        request.Reads client.idna (client.viewUrl views.campaign)) ∧
      ∀ request ∈ sent.tail, ∃ keys, keys ≠ [] ∧ .null ∉ keys ∧
        request.LooksUp client.idna (client.viewUrl views.latest) keys := by
  obtain ⟨log, hlog, hanswers, hsent⟩ := Fetch.exists_dialogue views (client.source (noting server))
    Prod.snd (fun ask _ => (client.request? ask).toList)
    (fun ask state => by rw [source_noting]) .registry (state, [])
  have hsame := Fetch.run_of_proj views (client.source server) (client.source (noting server))
    Prod.fst (fun ask state => by rw [source_noting]) .registry (state, [])
  obtain ⟨hresult, hstate⟩ := Prod.mk.inj hsame
  refine ⟨log.flatMap fun entry => (client.request? entry.1).toList, ?_, ?_⟩
  · rw [Prod.ext_iff, Prod.ext_iff]
    exact ⟨hresult.symm, hstate.symm, hsent⟩
  obtain ⟨answer, rest, rfl, hanswered, hkeyed⟩ := hlog.course.keyed
  have hlater : ∀ request ∈ rest.flatMap fun entry => (client.request? entry.1).toList,
      ∃ keys, keys ≠ [] ∧ .null ∉ keys ∧
        request.LooksUp client.idna (client.viewUrl views.latest) keys := by
    intro request hmem
    obtain ⟨entry, hentry, hrequest⟩ := List.mem_flatMap.1 hmem
    obtain ⟨hview, hkeys, hnull⟩ := hkeyed entry hentry
    rcases request?_eq_some (Option.mem_toList.1 hrequest) with ⟨hnone, -⟩ | ⟨-, hlooks⟩
    · exact absurd hnone hkeys
    · exact ⟨_, hkeys, hnull, hview ▸ hlooks⟩
  cases hfirst : client.request? (.registry views) with
  | some first =>
    rw [List.flatMap_cons, hfirst, Option.toList_some, List.singleton_append]
    refine ⟨fun request hhead => ?_, hlater⟩
    obtain rfl := Option.some.inj hhead
    rcases request?_eq_some hfirst with ⟨-, hreads⟩ | ⟨hkeys, -⟩
    · exact hreads
    · exact absurd rfl hkeys
  | none =>
    -- a run whose first question cannot be sent is over
    have hrest : rest = [] := by
      cases rest with
      | nil => rfl
      | cons entry rest =>
        obtain ⟨response, rfl⟩ := hanswered (by simp)
        obtain ⟨before, hbefore⟩ := hanswers _ List.mem_cons_self
        obtain ⟨request, hrequest⟩ := exists_request_of_answered client (noting server) hbefore
        rw [hfirst] at hrequest
        exact absurd hrequest (by simp)
    subst hrest
    simp [hfirst]

/-- **A cycle reads the registry and looks up the rest.**  Whatever the configuration, whichever domain
names can be read and whatever the server does, the first request of a cycle, if it gets to make one, is
a `GET` request to the address of the registry view.  Every later one is a `POST` request to the address
of the agent view, and its body names keys, at least one and none of them null; so a request without keys
is the first one, and the agent view is never read as a whole. -/
theorem cycle_reads_then_looks_up (config : Config) (idna : Url.Host.Idna) (server : Server σ)
    (cycles : Cycles) (state : σ) :
    ∃ result after later sent,
      cycles.run config.views ((ofConfig config idna).source server) state = (result, after, later) ∧
      cycles.run config.views ((ofConfig config idna).source (noting server)) (state, []) =
        (result, after, later, sent) ∧
      (∀ request, sent.head? = some request →
        request.Reads idna ((ofConfig config idna).viewUrl config.campaignView)) ∧
      (∀ request ∈ sent.tail, ∃ keys, keys ≠ [] ∧ .null ∉ keys ∧
        request.LooksUp idna ((ofConfig config idna).viewUrl config.latestView) keys) ∧
      ∀ i request, sent[i]? = some request → request.body = none → i = 0 := by
  obtain ⟨sent, hrun, hfirst, hlater⟩ :=
    exists_requests (ofConfig config idna) config.views server state
  have hload : Cycles.load config.views ((ofConfig config idna).source (noting server)) (state, []) =
      ((Cycles.load config.views ((ofConfig config idna).source server) state).1,
        (Cycles.load config.views ((ofConfig config idna).source server) state).2, sent) := by
    rw [Cycles.load, hrun]
    rfl
  have hunkeyed : ∀ i request, sent[i]? = some request → request.body = none → i = 0 := by
    intro i request hget hbody
    cases i with
    | zero => rfl
    | succ i =>
      rw [← List.getElem?_tail] at hget
      obtain ⟨keys, -, -, hlooks⟩ := hlater request (List.mem_of_getElem? hget)
      rw [hlooks.body] at hbody
      exact absurd hbody (by simp)
  rcases hplain : Cycles.load config.views ((ofConfig config idna).source server) state with
    ⟨_ | table, later⟩
  · rw [hplain] at hload
    exact ⟨_, _, later, sent, Cycles.run_of_error hplain cycles, Cycles.run_of_error hload cycles,
      hfirst, hlater, hunkeyed⟩
  · rw [hplain] at hload
    exact ⟨_, _, later, sent, Cycles.run_of_ok hplain cycles, Cycles.run_of_ok hload cycles, hfirst,
      hlater, hunkeyed⟩

end Client

end RequestBoard
