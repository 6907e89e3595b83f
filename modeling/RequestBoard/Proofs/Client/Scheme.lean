import RequestBoard.Proofs.Client.Address
import RequestBoard.Proofs.Config.Stated
import RequestBoard.Proofs.Url.Origin

/-!
# The scheme of an address

A configuration is accepted if the URL of the document store begins with `http://` or `https://`, and the
slashes at the end of that URL are dropped.  If the URL consists of nothing else, the two slashes of the
scheme are dropped with them, and then the name of the database is read as the host.

* `Client.toList_trimSlashes_scheme` — what is dropped of a URL, and what is not.
* `Client.viewUrl_loses_scheme` — **the scheme may be lost**: an accepted configuration.
* `Client.viewUrl_begins_with_scheme_iff` — **when it is not**, and when the host comes from the URL.
-/

namespace RequestBoard.Client

/-! ## What is left of a URL -/

/-- Any character but a slash is left. -/
theorem mem_trimSlashes_iff {text : String} {c : Char} (h : c ≠ '/') :
    c ∈ (trimSlashes text).toList ↔ c ∈ text.toList := by
  obtain ⟨count, htext⟩ := exists_eq_trimSlashes_append text
  have hslashes : c ∉ (slashes count).toList := by
    rw [slashes, String.toList_ofList]
    exact fun hc => h (List.eq_of_mem_replicate hc)
  calc c ∈ (trimSlashes text).toList
      ↔ c ∈ (trimSlashes text ++ slashes count).toList := by
        rw [String.toList_append, List.mem_append, or_iff_left hslashes]
    _ ↔ c ∈ text.toList := by rw [← htext]

/-- What is left of a text is part of it. -/
theorem mem_of_mem_trimSlashes {text : String} {c : Char} (h : c ∈ (trimSlashes text).toList) :
    c ∈ text.toList := by
  rw [trimSlashes, String.toList_ofList, List.mem_reverse] at h
  exact List.mem_reverse.1 ((List.dropWhile_suffix _).mem h)

/-- Nothing is left of slashes, and of nothing else. -/
theorem trimSlashes_eq_empty_iff {text : String} :
    trimSlashes text = "" ↔ ∀ c ∈ text.toList, c = '/' := by
  rw [← String.toList_inj, trimSlashes, String.toList_ofList, String.toList_empty,
    List.reverse_eq_nil_iff, List.dropWhile_eq_nil_iff]
  simp

/-! ## Schemes -/

/-- What the check of a configuration says of the URL: a scheme, and any text after it. -/
theorem exists_scheme {config : Config} (h : config.Usable) :
    ∃ scheme ∈ Url.schemes, ∃ rest, config.couchUrl = scheme ++ "://" ++ rest := by
  rcases h.http with ⟨rest, hrest⟩ | ⟨rest, hrest⟩
  · refine ⟨"http", by decide, String.ofList rest, ?_⟩
    rw [← String.toList_inj, ← hrest]
    simp [String.toList_append]
  · refine ⟨"https", by decide, String.ofList rest, ?_⟩
    rw [← String.toList_inj, ← hrest]
    simp [String.toList_append]

/-- The slashes of a scheme are dropped with those at the end of a URL, if there is nothing in between;
its colon never is. -/
theorem toList_trimSlashes_scheme (scheme rest : String) :
    (trimSlashes (scheme ++ "://" ++ rest)).toList =
      scheme.toList ++ ':' :: (trimSlashes ("//" ++ rest)).toList := by
  have htext : (scheme ++ "://" ++ rest).toList = scheme.toList ++ ':' :: ("//" ++ rest).toList := by
    simp [String.toList_append]
  rw [trimSlashes, String.toList_ofList, htext, Url.reverse_dropWhile_append_cons rfl, trimSlashes,
    String.toList_ofList]

/-- The slashes of a scheme stay if there is another character after them. -/
theorem slashes_prefix_trimSlashes {rest : String} (h : ∃ c ∈ rest.toList, c ≠ '/') :
    "//".toList <+: (trimSlashes ("//" ++ rest)).toList := by
  obtain ⟨c, hc, hslash⟩ := h
  obtain ⟨before, after, hrest⟩ := List.append_of_mem hc
  have htext : ("//" ++ rest).toList = ("//".toList ++ before) ++ c :: after := by
    rw [String.toList_append, hrest, List.append_assoc]
  have htrimmed : (trimSlashes ("//" ++ rest)).toList =
      "//".toList ++ (before ++ c :: (after.reverse.dropWhile (· == '/')).reverse) := by
    rw [← List.append_assoc, ← Url.reverse_dropWhile_append_cons (by simpa using hslash), ← htext]
    exact String.toList_ofList
  rw [htrimmed]
  exact List.prefix_append ..

/-! ## Addresses -/

/-- The names of a view and what stands between them. -/
def names (database design view : String) : String :=
  database ++ "/_design/" ++ design ++ "/_view/" ++ view

/-- The address of a view begins with the scheme and its colon, and ends with the names. -/
theorem toList_viewUrl_make (idna : Url.Host.Idna) (scheme rest database design view : String) :
    ((make (scheme ++ "://" ++ rest) database design idna).viewUrl view).toList =
      scheme.toList ++ ':' :: (trimSlashes ("//" ++ rest)).toList ++
        '/' :: (names database design view).toList := by
  have haddress : (make (scheme ++ "://" ++ rest) database design idna).viewUrl view =
      trimSlashes (scheme ++ "://" ++ rest) ++ "/" ++ names database design view := by
    simp only [viewUrl, make, names, String.append_assoc]
  rw [haddress, String.toList_append, String.toList_append, toList_trimSlashes_scheme,
    List.append_assoc]
  rfl

variable {scheme rest : String}

/-- An address begins with a scheme and its slashes if the URL has more than slashes after it, or else if
the database begins with a slash. -/
theorem scheme_prefix_viewUrl_iff {database : String} (hdatabase : database ≠ "")
    (design view : String) :
    (scheme ++ "://").toList <+:
        ((make (scheme ++ "://" ++ rest) database design).viewUrl view).toList ↔
      (∃ c ∈ rest.toList, c ≠ '/') ∨ database.toList.head? = some '/' := by
  have hscheme : (scheme ++ "://").toList = scheme.toList ++ ':' :: "//".toList := by
    simp [String.toList_append]
  rw [toList_viewUrl_make, hscheme, List.append_assoc, List.prefix_append_right_inj,
    List.cons_append, List.cons_prefix_cons, eq_self_iff_true, true_and]
  by_cases hrest : ∃ c ∈ rest.toList, c ≠ '/'
  · refine iff_of_true ?_ (Or.inl hrest)
    exact (slashes_prefix_trimSlashes hrest).trans (List.prefix_append ..)
  · have hslashes : trimSlashes ("//" ++ rest) = "" := by
      rw [trimSlashes_eq_empty_iff, String.toList_append]
      simpa using hrest
    obtain ⟨first, others, hfirst⟩ : ∃ first others, database.toList = first :: others :=
      List.exists_cons_of_ne_nil (by simpa [String.toList_inj] using hdatabase)
    rw [hslashes, or_iff_right hrest]
    simp [names, String.toList_append, hfirst, eq_comm]

/-- The origin of an address comes from the URL of the document store if a host may begin in it. -/
theorem origin_viewUrl (idna : Url.Host.Idna) (hscheme : scheme ∈ Url.schemes)
    (h : ∃ c ∈ rest.toList, Url.isSkipped c = false) (database design view : String) :
    (Url.parse? idna ((make (scheme ++ "://" ++ rest) database design).viewUrl view)).map
        Url.origin =
      Url.originOf? idna scheme.toList
        (Url.authority (Url.unbroken (trimSlashes ("//" ++ rest)).toList)) := by
  refine Url.origin_append_slash idna hscheme ?_ (toList_viewUrl_make ..)
  obtain ⟨c, hc, hskipped⟩ := h
  have hslash : c ≠ '/' := by
    rintro rfl
    exact absurd hskipped (by decide)
  refine ⟨c, (mem_trimSlashes_iff hslash).2 ?_, hskipped⟩
  rw [String.toList_append, List.mem_append]
  exact Or.inr hc

/-- The names are read as if they stood right after the scheme if no host can begin before them. -/
theorem parse?_viewUrl_of_skipped (idna : Url.Host.Idna) (hscheme : scheme ∈ Url.schemes)
    (h : ∀ c ∈ rest.toList, Url.isSkipped c = true) (database design view : String) :
    Url.parse? idna ((make (scheme ++ "://" ++ rest) database design).viewUrl view) =
      Url.parse? idna (scheme ++ "://" ++ names database design view) := by
  have hafter : (scheme ++ "://" ++ names database design view).toList =
      scheme.toList ++ ':' :: ['/'] ++ '/' :: (names database design view).toList := by
    simp [String.toList_append]
  have hslash : ∀ c ∈ ['/'], Url.isSkipped c = true := List.forall_mem_singleton.2 rfl
  refine Url.parse?_of_skipped idna hscheme ?_ hslash (toList_viewUrl_make ..) hafter
  intro c hc
  have hmem : c ∈ ['/'] ∨ c ∈ rest.toList := by
    simpa [String.toList_append] using mem_of_mem_trimSlashes hc
  rcases hmem with hlead | hrest
  · exact hslash c hlead
  · exact h c hrest

/-! ## Configurations -/

/-- **The scheme may be lost.**  A configuration whose URL is a scheme and nothing else is accepted, and
then the addresses of its views have no such beginning any more, and the database is the host. -/
theorem viewUrl_loses_scheme :
    Config.validate { couchUrl := "http://" } = .ok () ∧
      (ofConfig { couchUrl := "http://" }).viewUrl "v" = "http:/wmstats/_design/WMStats/_view/v" ∧
      ¬ "http://".toList <+: ((ofConfig { couchUrl := "http://" }).viewUrl "v").toList ∧
      (Url.parse? Url.Host.asciiOnly ((ofConfig { couchUrl := "http://" }).viewUrl "v")).map
        Url.origin = some (false, .domain "wmstats", 80) := by
  refine ⟨rfl, by decide, by decide, by decide⟩

/-- **When the scheme is kept.**  The URL of an accepted configuration is a scheme with its slashes and any
text after it.  The address of a view begins with that scheme and its slashes if the text has a
character other than a slash in it, or if the database begins with a slash.  If there is a character in
it at which a host may begin, then a request goes to the same server whatever the names are; and if
not, the first of the names is read as the host. -/
theorem viewUrl_begins_with_scheme_iff (config : Config) (idna : Url.Host.Idna)
    (h : config.validate = .ok ()) (view : String) :
    ∃ scheme ∈ Url.schemes, ∃ rest, config.couchUrl = scheme ++ "://" ++ rest ∧
      ((scheme ++ "://").toList <+: ((ofConfig config).viewUrl view).toList ↔
        (∃ c ∈ rest.toList, c ≠ '/') ∨ config.database.toList.head? = some '/') ∧
      ((∃ c ∈ rest.toList, Url.isSkipped c = false) → ∀ database design view',
        (Url.parse? idna ((make config.couchUrl database design).viewUrl view')).map Url.origin =
          (Url.parse? idna ((ofConfig config).viewUrl view)).map Url.origin) ∧
      ((∀ c ∈ rest.toList, Url.isSkipped c = true) →
        Url.parse? idna ((ofConfig config).viewUrl view) =
          Url.parse? idna (scheme ++ "://" ++ names config.database config.design view)) := by
  have husable := Config.validate_eq_ok_iff.1 h
  obtain ⟨scheme, hscheme, rest, hurl⟩ := exists_scheme husable
  have hdatabase : config.database ≠ "" := by
    obtain ⟨c, hc, -⟩ := husable.named config.database (by simp)
    rintro hempty
    rw [hempty] at hc
    exact absurd hc (by simp)
  refine ⟨scheme, hscheme, rest, hurl, ?_, fun hhost database design view' => ?_, fun hskipped => ?_⟩
  · rw [ofConfig, hurl]
    exact scheme_prefix_viewUrl_iff hdatabase config.design view
  · rw [ofConfig, hurl, origin_viewUrl idna hscheme hhost, origin_viewUrl idna hscheme hhost]
  · rw [ofConfig, hurl]
    exact parse?_viewUrl_of_skipped idna hscheme hskipped config.database config.design view

/-- Slashes on both sides of the host. -/
theorem viewUrl_begins_with_scheme_of_slashes :
    Config.validate { couchUrl := "https:////h//" } = .ok () ∧
      "https://".toList <+: ((ofConfig { couchUrl := "https:////h//" }).viewUrl "v").toList ∧
      ∀ database design view,
        (Url.parse? Url.Host.asciiOnly ((make "https:////h//" database design).viewUrl view)).map
          Url.origin = some (true, .domain "h", 443) := by
  have hvalid : Config.validate { couchUrl := "https:////h//" } = .ok () := rfl
  obtain ⟨scheme, hscheme, rest, hurl, hbegins, hserver, -⟩ :=
    viewUrl_begins_with_scheme_iff { couchUrl := "https:////h//" } Url.Host.asciiOnly hvalid "v"
  simp only [Url.schemes, List.mem_cons, List.not_mem_nil, or_false] at hscheme
  have htext := congrArg String.toList hurl
  rcases hscheme with rfl | rfl
  · simp [String.toList_append] at htext
  · have hrest : "//h//".toList = rest.toList := by simpa [String.toList_append] using htext
    refine ⟨hvalid, hbegins.2 (Or.inl ⟨'h', hrest ▸ by decide, by decide⟩), fun database design view => ?_⟩
    rw [hserver ⟨'h', hrest ▸ by decide, by decide⟩ database design view]
    decide

end RequestBoard.Client
