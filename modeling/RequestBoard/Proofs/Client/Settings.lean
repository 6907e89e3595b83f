import RequestBoard.Client
import RequestBoard.Proofs.Url.Target
import RequestBoard.Proofs.View.Settings

/-!
# The request for a query

A query is sent in three places: whether there are keys is in the method, the keys are in the body, and the
flags are in the query of the URL.  Taken together they lose nothing of the query, and nothing is
added to it unless the address has a query of its own.

* `Client.requestTo`, `request?_of_parse?` — the request for a query.
* `Outgoing.SameUpTo`, `Client.sameUpTo_iff` — **two requests are the same if their queries are**, for any
  way of comparing keys.
* `Client.view_query_stays` — **a query may stand there before**: a view with a query in its name.
* `Client.request_tells_settings` — **the request for a sequence of settings**.
-/

namespace RequestBoard

open View (Query Setting Flag IsLast Says)

/-- The requests have the same method and the same request line, and bodies that are related. -/
def Outgoing.SameUpTo (related : Json → Json → Prop) (request other : Outgoing) : Prop :=
  request.method = other.method ∧ request.url.target = other.url.target ∧
    Option.Rel related request.body other.body

/-- The queries have the same flags, and keys that are the same when numbers are compared by value. -/
def View.Query.Same (query other : Query) : Prop :=
  Json.sameItems query.keys other.keys = true ∧ ∀ flag : Flag, flag.get query = flag.get other

namespace Client

variable {client : Client} {view : String} {url : Url}

/-- The request for a query. -/
def requestTo (url : Url) (query : Query) : Outgoing :=
  if query.keys.isEmpty then
    { method := "GET", url := url.appendPairs query.params, contentType := none, body := none }
  else
    { method := "POST", url := url.appendPairs query.params, contentType := some "application/json",
      body := some (keysBody query.keys) }

/-- There is a request for every query if there is one for any. -/
theorem request?_of_parse? (h : Url.parse? client.idna (client.viewUrl view) = some url) (query : Query) :
    client.request? ⟨view, query⟩ = some (requestTo url query) := by
  rw [request?, h, requestTo]
  simp only [Option.bind_eq_bind, Option.bind_some]
  split <;> rfl

theorem url_requestTo (query : Query) :
    (requestTo url query).url = url.appendPairs query.params := by
  rw [requestTo]
  split <;> rfl

/-- The request line tells the flags. -/
theorem target_requestTo {query other : Query} :
    (requestTo url query).url.target = (requestTo url other).url.target ↔
      ∀ flag : Flag, flag.get query = flag.get other := by
  have hpath : (requestTo url query).url.path = (requestTo url other).url.path := by
    rw [url_requestTo, url_requestTo]
    rfl
  rw [Url.target_inj hpath, url_requestTo, url_requestTo,
    Url.query_appendPairs_inj Query.ampersand_not_mem_pairText Query.ampersand_not_mem_pairText,
    Query.map_pairText_params_inj]

/-- **Requests are the same if their queries are**, for any relation of bodies that comes to a relation of
keys in which the absence of keys is related to nothing but itself. -/
theorem sameUpTo_iff {related : Json → Json → Prop} (relatedKeys : List Json → List Json → Prop)
    {query other : Query}
    (hbody : ∀ keys others, related (keysBody keys) (keysBody others) ↔ relatedKeys keys others)
    (hempty : ∀ keys, relatedKeys [] keys ↔ keys = [])
    (hempty' : ∀ keys, relatedKeys keys [] ↔ keys = []) :
    (requestTo url query).SameUpTo related (requestTo url other) ↔
      relatedKeys query.keys other.keys ∧ ∀ flag : Flag, flag.get query = flag.get other := by
  -- the method tells whether there are keys, and only together with it does the body tell which
  have hkeys : (requestTo url query).method = (requestTo url other).method ∧
      Option.Rel related (requestTo url query).body (requestTo url other).body ↔
        relatedKeys query.keys other.keys := by
    cases hquery : query.keys with
    | nil => cases hother : other.keys <;> simp [requestTo, hquery, hother, hempty]
    | cons key rest => cases hother : other.keys <;> simp [requestTo, hquery, hother, hempty', hbody]
  rw [Outgoing.SameUpTo, target_requestTo, ← hkeys]
  exact ⟨fun ⟨hmethod, hflags, hbody⟩ => ⟨⟨hmethod, hbody⟩, hflags⟩,
    fun ⟨⟨hmethod, hbody⟩, hflags⟩ => ⟨hmethod, hflags, hbody⟩⟩

/-- **A query may stand there before.**  A client has a view whose name brings a query with it; what is
asked for is that query and after it the one flag that was set. -/
theorem view_query_stays :
    let client := make "http://h" "wmstats" "WMStats"
    ∃ request, client.request? ⟨"v?group=true", .ofSettings [.reduce false]⟩ = some request ∧
      Says [.reduce false] [] [("reduce", "false")] ∧
      request.url.target = "/wmstats/_design/WMStats/_view/v?group=true&reduce=false" ∧
      Url.queryParts request.url.target ≠ [("reduce", "false")].map Url.pairText := by
  intro client
  have htarget : (client.request? ⟨"v?group=true", .ofSettings [.reduce false]⟩).map (·.url.target) =
      some "/wmstats/_design/WMStats/_view/v?group=true&reduce=false" := by
    decide +kernel
  obtain ⟨request, hrequest, htext⟩ := Option.map_eq_some_iff.1 htarget
  refine ⟨request, hrequest, View.says_ofSettings [.reduce false], htext, ?_⟩
  rw [htext]
  decide +kernel

/-- **A request tells what the settings come to.**  If requests can be sent to the address of a view at
all, every sequence of settings makes one: a `GET` request without a body if the keys that the settings
come to are none, and otherwise a `POST` request with these keys.  The query of the request line is what
query the address has of its own, with the pairs after it that the settings come to; so these are all of
it if there is no other.  Only the last setting of each kind counts.  And the requests
of two sequences are the same, in the method, the request line and the body, just when the sequences make
the same query; this is so for plain equality, and it is so when numbers are compared by value. -/
theorem request_tells_settings (client : Client) (view : String) :
    (Url.parse? client.idna (client.viewUrl view) = none →
      ∀ settings, client.request? ⟨view, .ofSettings settings⟩ = none) ∧
    ∀ url, Url.parse? client.idna (client.viewUrl view) = some url →
      (∀ settings, ∃ request keys pairs,
        client.request? ⟨view, .ofSettings settings⟩ = some request ∧ Says settings keys pairs ∧
          request.url = url.appendPairs pairs ∧
          Url.queryParts request.url.target =
            Url.stretches (url.query.getD "").toList ++ pairs.map Url.pairText ∧
          (url.query.getD "" = "" →
            request.url.query = (if pairs = [] then none
              else some (String.ofList (['&'].intercalate (pairs.map Url.pairText)))) ∧
            Url.queryParts request.url.target = pairs.map Url.pairText) ∧
          (keys = [] → request.method = "GET" ∧ request.contentType = none ∧ request.body = none) ∧
          (keys ≠ [] → request.method = "POST" ∧ request.contentType = some "application/json" ∧
            request.body = some (.object [("keys", .array keys)]))) ∧
      ∀ settings others request other,
        client.request? ⟨view, .ofSettings settings⟩ = some request →
        client.request? ⟨view, .ofSettings others⟩ = some other →
          ((∀ setting, IsLast settings setting ↔ IsLast others setting) → request = other) ∧
          (request.SameUpTo (fun body body' => body = body') other ↔
            Query.ofSettings settings = .ofSettings others) ∧
          (request.SameUpTo (fun body body' => body.same body' = true) other ↔
            (Query.ofSettings settings).Same (.ofSettings others)) := by
  refine ⟨fun hparse settings => by rw [request?, hparse]; rfl, fun url hparse => ⟨?_, ?_⟩⟩
  · intro settings
    have hquery : Url.queryParts (url.appendPairs (Query.ofSettings settings).params).target =
        Url.stretches (url.query.getD "").toList ++ (Query.ofSettings settings).params.map Url.pairText :=
      Url.queryParts_appendPairs (Url.ne_of_mem_path hparse) Query.ampersand_not_mem_pairText
    refine ⟨_, _, _, request?_of_parse? hparse _, View.says_ofSettings settings, url_requestTo _, ?_, ?_,
      ?_, ?_⟩
    · rw [url_requestTo, hquery]
    · intro hnone
      rw [url_requestTo, hquery, hnone]
      exact ⟨Url.query_appendPairs_of_none hnone, rfl⟩
    · intro hkeys
      simp [requestTo, hkeys]
    · intro hkeys
      simp [requestTo, hkeys, keysBody]
  · intro settings others request other hrequest hother
    rw [request?_of_parse? hparse] at hrequest hother
    obtain rfl := Option.some.inj hrequest
    obtain rfl := Option.some.inj hother
    refine ⟨fun hlast => by rw [Query.ofSettings_congr hlast], ?_, ?_⟩
    · rw [sameUpTo_iff (fun keys keys' => keys = keys'), Query.ext_iff_flags]
      · simp [keysBody]
      · exact fun keys => eq_comm
      · exact fun keys => Iff.rfl
    · rw [sameUpTo_iff (fun keys keys' => Json.sameItems keys keys' = true), Query.Same]
      · simp [keysBody, Json.same, Json.sameMembers]
      · intro keys
        cases keys <;> simp [Json.sameItems]
      · intro keys
        cases keys <;> simp [Json.sameItems]

/-- Settings that are made again, those of different kinds in another order, and a scheme for which there
are no requests. -/
theorem request_tells_settings_of_overwritten :
    let keys : List Json := [.string "a", .string "a"]
    let settings : List Setting := [.reduce true, .keys [], .group true, .keys keys, .reduce false]
    let others : List Setting := [.keys keys, .reduce false, .group true]
    (∀ setting, IsLast settings setting ↔ IsLast others setting) ∧
      (∃ request, (make "http://h" "d" "g").request? ⟨"v", .ofSettings settings⟩ = some request ∧
        (make "http://h" "d" "g").request? ⟨"v", .ofSettings others⟩ = some request ∧
        request.url.target = "/d/_design/g/_view/v?reduce=false&group=true" ∧
        Url.queryParts request.url.target =
          [("reduce", "false"), ("group", "true")].map Url.pairText) ∧
      (make "ftp://h" "d" "g").request? ⟨"v", .ofSettings settings⟩ = none := by
  intro keys settings others
  have hlast : ∀ setting, IsLast settings setting ↔ IsLast others setting := by
    intro setting
    have hsettings : settings =
        [] ++ [.reduce true] ++ [.keys []] ++ [.group true] ++ [.keys keys] ++ [.reduce false] := rfl
    have hothers : others = [] ++ [.keys keys] ++ [.reduce false] ++ [.group true] := rfl
    rw [hsettings, hothers]
    simp only [View.isLast_concat, View.not_isLast_nil]
    cases setting <;> simp [View.Setting.kind]
  have hparse : Url.parse? Url.Host.asciiOnly ((make "http://h" "d" "g").viewUrl "v") =
      some ⟨false, .domain "h", 80, ["d", "_design", "g", "_view", "v"], none⟩ := by
    decide +kernel
  obtain ⟨hnone, -⟩ := request_tells_settings (make "ftp://h" "d" "g") "v"
  obtain ⟨-, hsome⟩ := request_tells_settings (make "http://h" "d" "g") "v"
  obtain ⟨hmade, htold⟩ := hsome _ hparse
  obtain ⟨request, -, -, hrequest, -⟩ := hmade settings
  obtain ⟨other, -, -, hother, -⟩ := hmade others
  have htarget : request.url.target = "/d/_design/g/_view/v?reduce=false&group=true" := by
    rw [request?_of_parse? hparse, Option.some.injEq] at hrequest
    rw [← hrequest, url_requestTo]
    decide +kernel
  refine ⟨hlast, ⟨request, hrequest, ?_, htarget, ?_⟩, hnone (by decide +kernel) settings⟩
  · rw [(htold settings others request other hrequest hother).1 hlast]
    exact hother
  · rw [htarget]
    decide +kernel

end Client

end RequestBoard
