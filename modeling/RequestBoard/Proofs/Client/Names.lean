import RequestBoard.Proofs.Client.Scheme
import RequestBoard.Proofs.Client.Settings
import RequestBoard.Proofs.Url.Server
import RequestBoard.Proofs.Url.Target

/-!
# Names in a request line

The names of a view become part of an address as they are, and the address is then read as a URL, in which
some characters have a meaning of their own.  A configuration is accepted if no name is blank, so a name
may well have such characters in it: then the request is for something else, and more may be asked of it.
What the names cannot do is to change the server, or the flags of the query.

* `Client.IsPlain`, `Client.ArePlain` — names without a meaning of their own.
* `Client.view_name_adds_to_query` — **a name may become part of the query**: an accepted configuration.
* `Client.request_line_names_view_iff` — **a request line names the view** if the names are plain, and
  only then.
-/

namespace RequestBoard.Client

open View (Query)

/-! ## Plain names -/

/-- A name that means nothing else in the path of a URL. -/
structure IsPlain (name : String) : Prop where
  /-- There is no slash of either kind in it, nothing that would end a path, and nothing that does not
  count in a URL. -/
  inert : ∀ c ∈ name.toList, c ∉ ['/', '\\', '?', '#', '\t', '\n', '\r']
  /-- There is no percent sign in it with two hexadecimal digits after it. -/
  unescaped : Url.Unescaped name.toList
  notDot : name ≠ "."
  notDotDot : name ≠ ".."

instance (name : String) : Decidable (IsPlain name) :=
  decidable_of_iff
    ((name.toList.all fun c => c ∉ ['/', '\\', '?', '#', '\t', '\n', '\r']) = true ∧
      Url.Unescaped name.toList ∧ name ≠ "." ∧ name ≠ "..") <| by
    simp only [List.all_eq_true, decide_eq_true_eq]
    exact ⟨fun ⟨inert, unescaped, notDot, notDotDot⟩ => ⟨inert, unescaped, notDot, notDotDot⟩,
      fun h => ⟨h.inert, h.unescaped, h.notDot, h.notDotDot⟩⟩

/-- Names that mean nothing else in a URL, the last of which also stands at its end, where controls and
spaces do not count. -/
structure ArePlain (database design view : String) : Prop where
  plain : ∀ name ∈ [database, design, view], IsPlain name
  ending : ∀ c ∈ view.toList.getLast?, 0x20 < c.toNat

instance (database design view : String) : Decidable (ArePlain database design view) :=
  decidable_of_iff ((∀ name ∈ [database, design, view], IsPlain name) ∧
      (view.toList.getLast?.all fun c => 0x20 < c.toNat) = true) <| by
    simp only [Option.all_eq_true, decide_eq_true_eq]
    exact ⟨fun ⟨plain, ending⟩ => ⟨plain, ending⟩, fun h => ⟨h.plain, h.ending⟩⟩

/-- A name is plain if nothing of it is left out of a path or ends one, it has no slashes, and it stands for
itself as a segment. -/
theorem isPlain_iff {name : String} :
    IsPlain name ↔ (∀ c ∈ name.toList, Url.isBreak c = false ∧ c ≠ '#' ∧ c ≠ '?') ∧
      (∀ c ∈ name.toList, Url.isSlash c = false) ∧ Url.IsLiteral name.toList := by
  have hinert : ∀ c : Char, c ∉ ['/', '\\', '?', '#', '\t', '\n', '\r'] ↔
      (Url.isBreak c = false ∧ c ≠ '#' ∧ c ≠ '?') ∧ Url.isSlash c = false := by
    intro c
    simp only [Url.isBreak, Url.isSlash, List.mem_cons, List.not_mem_nil, or_false, not_or,
      Bool.or_eq_false_iff, beq_eq_false_iff_ne]
    tauto
  have hspelled : ∀ other : String, name.toList ≠ other.toList ↔ name ≠ other := fun other =>
    not_congr String.toList_inj
  have hdot : name.toList ≠ ['.'] ↔ name ≠ "." := hspelled "."
  have hdots : name.toList ≠ ['.', '.'] ↔ name ≠ ".." := hspelled ".."
  rw [← and_assoc, ← forall₂_and, Url.isLiteral_iff, hdot, hdots]
  simp only [← hinert]
  exact ⟨fun h => ⟨h.inert, h.unescaped, h.notDot, h.notDotDot⟩,
    fun ⟨hinert, hunescaped, hdot, hdots⟩ => ⟨hinert, hunescaped, hdot, hdots⟩⟩

theorem toList_names (database design view : String) :
    (names database design view).toList =
      joined '/' database.toList (["_design", design, "_view", view].map String.toList) := by
  simp [names, joined, String.toList_append]

/-- The view stands at the end of the names. -/
theorem getLast?_names (database design view : String) :
    (names database design view).toList.getLast? = some (view.toList.getLast?.getD '/') := by
  have hend : (names database design view).toList =
      (database ++ "/_design/" ++ design ++ "/_view").toList ++ '/' :: view.toList := by
    simp [names, String.toList_append]
  rw [hend, List.getLast?_append, List.getLast?_cons, Option.some_or]

/-- Names are plain if they come back from a path. -/
theorem arePlain_iff {database design view : String} :
    ArePlain database design view ↔
      Url.pathText (names database design view).toList = (names database design view).toList ∧
        ∀ name ∈ [database, "_design", design, "_view", view],
          (∀ c ∈ name.toList, Url.isSlash c = false) ∧ Url.IsLiteral name.toList := by
  have hmarkers : IsPlain "_design" ∧ IsPlain "_view" := by decide
  have hplain : (∀ name ∈ [database, design, view], IsPlain name) ↔
      ∀ name ∈ [database, "_design", design, "_view", view], IsPlain name := by
    simp only [List.forall_mem_cons, hmarkers.1, hmarkers.2, true_and]
  have hmem : ∀ p : Char → Prop, p '/' → ((∀ c ∈ (names database design view).toList, p c) ↔
      ∀ name ∈ [database, "_design", design, "_view", view], ∀ c ∈ name.toList, p c) := by
    intro p hslash
    rw [toList_names, forall_mem_joined hslash, ← List.map_cons, List.forall_mem_map]
  have hending : (∀ c ∈ view.toList.getLast?, 0x20 < c.toNat) ↔
      ∀ c ∈ (names database design view).toList.getLast?, Url.isEdge c = false := by
    rw [getLast?_names]
    cases view.toList.getLast? <;> simp [Url.isEdge]
  rw [Url.pathText_eq_self_iff, hmem _ (by decide), ← hending]
  constructor
  · rintro ⟨hthree, hend⟩
    have hfive := hplain.1 hthree
    exact ⟨⟨fun name hname => (isPlain_iff.1 (hfive name hname)).1, hend⟩,
      fun name hname => (isPlain_iff.1 (hfive name hname)).2⟩
  · rintro ⟨⟨hkept, hend⟩, hliteral⟩
    exact ⟨hplain.2 fun name hname => isPlain_iff.2 ⟨hkept name hname, hliteral name hname⟩, hend⟩

/-! ## Servers -/

variable {idna : Url.Host.Idna} {host port : String} {address : Url.Host}

/-- Nothing is trimmed off the URL of a server. -/
theorem trimSlashes_server (hport : Url.IsPort port.toList) :
    trimSlashes ("//" ++ (host ++ ":" ++ port)) = "//" ++ (host ++ ":" ++ port) := by
  obtain ⟨digits, last, hlast⟩ := (List.eq_nil_or_concat' port.toList).resolve_left hport.nonempty
  have hslash : last ≠ '/' := by
    rintro rfl
    exact absurd (hport.digits '/' (by simp [hlast])) (by decide)
  have htext : ("//" ++ (host ++ ":" ++ port)).toList =
      ("//".toList ++ host.toList ++ ':' :: digits) ++ [last] := by
    simp [String.toList_append, hlast]
  rw [← String.toList_inj, trimSlashes, String.toList_ofList, htext, List.reverse_append,
    List.reverse_singleton, List.singleton_append, List.dropWhile_cons_of_neg (by simpa using hslash),
    List.reverse_cons, List.reverse_reverse]

theorem parse?_viewUrl_server (hhost : Url.IsHost idna host.toList address)
    (hport : Url.IsPort port.toList) (database design view : String) :
    Url.parse? idna ((make ("http://" ++ host ++ ":" ++ port) database design idna).viewUrl view) =
      some (Url.located ('/' :: Url.requested (names database design view).toList)
        (false, address, Url.decimal port.toList)) := by
  have hurl : "http://" ++ host ++ ":" ++ port = "http" ++ "://" ++ (host ++ ":" ++ port) := by
    rw [← String.toList_inj]
    simp [String.toList_append]
  have hslashes : ("//" ++ (host ++ ":" ++ port)).toList =
      '/' :: '/' :: Url.server host.toList port.toList := by
    simp [Url.server, String.toList_append]
  have htext : ((make ("http://" ++ host ++ ":" ++ port) database design idna).viewUrl view).toList =
      "http".toList ++ ':' :: ('/' :: '/' :: Url.server host.toList port.toList) ++
        '/' :: (names database design view).toList := by
    rw [hurl, toList_viewUrl_make, trimSlashes_server hport, hslashes]
  exact Url.parse?_server hhost hport htext

/-! ## Request lines -/

/-- The segments of a view come back from the path that is read from its names just when the names are
plain. -/
theorem decoded_pathOf_names_iff (database design view : String) :
    Url.decoded (Url.pathOf ('/' :: Url.pathText (names database design view).toList)) =
        [database, "_design", design, "_view", view].map Utf8.encode ↔
      ArePlain database design view := by
  have hencoded : [database, "_design", design, "_view", view].map Utf8.encode =
      (database.toList :: ["_design", design, "_view", view].map String.toList).map Utf8.bytes := by
    simp [Utf8.encode_eq_bytes]
  have hsublist := Url.pathText_sublist (names database design view).toList
  rw [arePlain_iff, hencoded]
  rw [toList_names] at hsublist ⊢
  rw [Url.decoded_pathOf_iff hsublist, ← List.map_cons, List.forall_mem_map]

/-- **A name may become part of the query.**  A configuration is accepted whose view has a question mark in
its name; what comes after that is asked for besides the flags of the query, and another view is read. -/
theorem view_name_adds_to_query :
    let config : Config := { campaignView := "v?reduce=false" }
    config.validate = .ok () ∧ config.couchUrl = "http://127.0.0.1:5984" ∧
      ∃ request, (ofConfig config).request? ⟨"v?reduce=false", { reduce := some true }⟩ = some request ∧
        request.url.target = "/wmstats/_design/WMStats/_view/v?reduce=false&reduce=true" ∧
        Url.pathNames request.url.target ≠
          ["wmstats", "_design", "WMStats", "_view", "v?reduce=false"].map Utf8.encode ∧
        Url.queryParts request.url.target ≠ [("reduce", "true")].map Url.pairText := by
  intro config
  have hvalid : Config.validate { campaignView := "v?reduce=false" } = .ok () := rfl
  have hmade : ((ofConfig config).request? ⟨"v?reduce=false", { reduce := some true }⟩).map
      (·.url.target) = some "/wmstats/_design/WMStats/_view/v?reduce=false&reduce=true" := by
    decide +kernel
  obtain ⟨request, hrequest, htarget⟩ := Option.map_eq_some_iff.1 hmade
  refine ⟨hvalid, rfl, request, hrequest, htarget, ?_, ?_⟩
  · rw [htarget]
    decide +kernel
  · rw [htarget]
    decide +kernel

/-- **When a request line names a view.**  If the URL of the document store is a host and a port, then there
is a request for every view and every query, to the host that is spelled and to that port; the flags of the
query are the last pairs of the request line, none of them changed.  The path of the line consists of the
five segments of the view just when the names in it are plain, and in that case the query of the line has
nothing else in it than the flags. -/
theorem request_line_names_view_iff (hhost : Url.IsHost idna host.toList address)
    (hport : Url.IsPort port.toList) (config : Config)
    (hurl : config.couchUrl = "http://" ++ host ++ ":" ++ port) (view : String) (query : Query) :
    ∃ request, (ofConfig config idna).request? ⟨view, query⟩ = some request ∧
      request.url.origin = (false, address, Url.decimal port.toList) ∧
      query.params.map Url.pairText <:+ Url.queryParts request.url.target ∧
      (Url.pathNames request.url.target =
          [config.database, "_design", config.design, "_view", view].map Utf8.encode ↔
        ArePlain config.database config.design view) ∧
      (ArePlain config.database config.design view →
        Url.queryParts request.url.target = query.params.map Url.pairText) := by
  have hparse := parse?_viewUrl_server hhost hport config.database config.design view
  rw [← hurl, ← ofConfig] at hparse
  have hrequest : (ofConfig config idna).request? ⟨view, query⟩ = some (requestTo _ query) :=
    request?_of_parse? hparse query
  refine ⟨_, hrequest, ?_⟩
  rw [url_requestTo]
  generalize hresource : Url.located _ _ = url
  have hpath : url.path = Url.pathOf
      ('/' :: Url.pathText (names config.database config.design view).toList) := by
    rw [← hresource, Url.path_located]
  have hsegments : ∀ segment ∈ url.path, ∀ c ∈ segment.toList, c ≠ '/' ∧ c ≠ '?' := by
    rw [hpath]
    exact Url.ne_of_mem_pathOf
  have hquery : Url.queryParts (url.appendPairs query.params).target =
      Url.stretches (url.query.getD "").toList ++ query.params.map Url.pairText :=
    Url.queryParts_appendPairs hsegments Query.ampersand_not_mem_pairText
  have hnames : Url.pathNames (url.appendPairs query.params).target = Url.decoded url.path := by
    rw [Url.pathNames_target]
    · rfl
    · exact hsegments
  refine ⟨?_, ?_, ?_, fun hplain => ?_⟩
  · rw [← hresource]
    rfl
  · rw [hquery]
    exact List.suffix_append _ _
  · rw [hnames, hpath]
    exact decoded_pathOf_names_iff config.database config.design view
  · rw [hquery, ← hresource, Url.query_located _ _ (arePlain_iff.1 hplain).1]
    rfl

/-- Names with a space, a percent sign, and the signs that part the pairs of a query, behind an address in
brackets. -/
theorem request_line_names_view_iff_of_signs :
    let config : Config :=
      { couchUrl := "http://[::1]:05984", database := "wm stats", design := "100%" }
    Url.IsHost Url.Host.asciiOnly "[::1]".toList (.ipv6 ⟨[0, 0, 0, 0, 0, 0, 0, 1], rfl⟩) ∧
      Url.IsPort "05984".toList ∧
      config.couchUrl = "http://" ++ "[::1]" ++ ":" ++ "05984" ∧
      ∃ request, (ofConfig config).request? ⟨"a&b=c", { reduce := some true }⟩ = some request ∧
        request.url.target = "/wm%20stats/_design/100%/_view/a&b=c?reduce=true" ∧
        request.url.origin = (false, .ipv6 ⟨[0, 0, 0, 0, 0, 0, 0, 1], rfl⟩, 5984) ∧
        Url.pathNames request.url.target =
          ["wm stats", "_design", "100%", "_view", "a&b=c"].map Utf8.encode ∧
        Url.queryParts request.url.target = [("reduce", "true")].map Url.pairText := by
  intro config
  have hhost : Url.IsHost Url.Host.asciiOnly "[::1]".toList
      (.ipv6 ⟨[0, 0, 0, 0, 0, 0, 0, 1], rfl⟩) :=
    (Url.isHost_iff_reads (Or.inl rfl)).2 (by decide +kernel)
  have hport : Url.IsPort "05984".toList := by decide
  have hurl : config.couchUrl = "http://" ++ "[::1]" ++ ":" ++ "05984" := by decide
  have hnames : ArePlain "wm stats" "100%" "a&b=c" := by decide
  obtain ⟨request, hrequest, horigin, -, hpath, hquery⟩ :=
    request_line_names_view_iff hhost hport config hurl "a&b=c" { reduce := some true }
  have htarget : ((ofConfig config).request? ⟨"a&b=c", { reduce := some true }⟩).map
      (·.url.target) = some "/wm%20stats/_design/100%/_view/a&b=c?reduce=true" := by
    decide +kernel
  rw [hrequest, Option.map_some, Option.some.injEq] at htarget
  refine ⟨hhost, hport, hurl, request, hrequest, htarget, ?_, hpath.2 hnames, hquery hnames⟩
  rw [horigin]
  decide

end RequestBoard.Client
