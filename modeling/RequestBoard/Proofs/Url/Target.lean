import RequestBoard.Proofs.Url.Origin
import RequestBoard.Proofs.Url.Pairs
import RequestBoard.Proofs.Url.Segments

/-!
# Reading a request line

A server takes a request line apart: what stands before the first question mark is the path, whose segments
it decodes, and the query after that is split at its ampersands.  It finds the segments that the line was
made of, and after whatever query there was before, the pairs that were appended to it.

* `Url.pathNames`, `Url.queryParts` — what a request line says.
* `Url.pathNames_target` — **the segments of a path** are read back from a request line.
* `Url.queryParts_appendPairs` — **pairs that were appended** stand at the end of the query.
-/

namespace RequestBoard.Url

/-- The names in the path of a request line, each of them decoded. -/
def pathNames (target : String) : List Bytes :=
  match target.toList.takeWhile (· != '?') with
  | '/' :: path => (path.splitOn '/').map percentDecode
  | _ => []

/-- The stretches between the ampersands of a query, empty ones aside. -/
def stretches (query : List Char) : List (List Char) := (query.splitOn '&').filter (!·.isEmpty)

/-- The parts of the query of a request line. -/
def queryParts (target : String) : List (List Char) :=
  stretches ((target.toList.dropWhile (· != '?')).drop 1)

/-! ## Paths -/

/-- The characters of a percent-encoded byte. -/
theorem ne_of_mem_percent {b : UInt8} {c : Char} (h : c ∈ percent b) : c ≠ '/' ∧ c ≠ '?' := by
  have hlt : b.toNat < 256 := b.toNat_lt
  have hdigit : ∀ {n : Nat}, n < 16 → (Nat.digitChar n).toUpper ≠ '/' ∧
      (Nat.digitChar n).toUpper ≠ '?' := by
    decide
  rw [percent, List.mem_cons, List.mem_cons, List.mem_singleton] at h
  rcases h with rfl | rfl | rfl
  · decide
  · exact hdigit (by omega)
  · exact hdigit (by omega)

/-- The characters of an encoded segment. -/
theorem ne_of_mem_percentEncode {segment : List Char} (h : '/' ∉ segment) {c : Char}
    (hc : c ∈ percentEncode inPathSet segment) : c ≠ '/' ∧ c ≠ '?' := by
  obtain ⟨d, hd, hc⟩ := List.mem_flatMap.1 hc
  split at hc
  case isTrue =>
    obtain ⟨b, -, hc⟩ := List.mem_flatMap.1 hc
    exact ne_of_mem_percent hc
  case isFalse hset =>
    obtain rfl := List.mem_singleton.1 hc
    refine ⟨fun hslash => h (hslash ▸ hd), ?_⟩
    rintro rfl
    exact hset rfl

/-- There is neither a slash nor a question mark in the segments of a path. -/
theorem ne_of_mem_pathOf {text : List Char} :
    ∀ segment ∈ pathOf text, ∀ c ∈ segment.toList, c ≠ '/' ∧ c ≠ '?' := by
  intro segment hsegment c hc
  obtain ⟨encoded, hencoded, rfl⟩ := List.mem_map.1 hsegment
  rw [String.toList_ofList] at hc
  rw [List.mem_reverse] at hencoded
  rcases mem_resolve hencoded with hplaced | rfl | ⟨piece, hpiece, rfl⟩
  · exact absurd hplaced List.not_mem_nil
  · exact absurd hc List.not_mem_nil
  · refine ne_of_mem_percentEncode (fun hslash => ?_) hc
    exact absurd (not_separates_of_mem_parts piece hpiece '/' hslash) (by decide)

variable {url : Url}

/-- Nor is there in those of a URL that was read. -/
theorem ne_of_mem_path {idna : Host.Idna} {text : String} (h : parse? idna text = some url) :
    ∀ segment ∈ url.path, ∀ c ∈ segment.toList, c ≠ '/' ∧ c ≠ '?' := by
  obtain ⟨resource, origin, rfl⟩ := exists_located h
  exact ne_of_mem_pathOf

/-- The query of a request line with its question mark. -/
def queryText (url : Url) : List Char :=
  match url.query with
  | some query => '?' :: query.toList
  | none => []

theorem toList_target (url : Url) :
    url.target.toList = joined '/' [] (url.path.map String.toList) ++ queryText url := by
  rw [target, String.toList_ofList, joined, List.nil_append, List.flatMap_map]
  rfl

/-- The first question mark of a request line comes after the path. -/
theorem split_target (h : ∀ segment ∈ url.path, ∀ c ∈ segment.toList, c ≠ '?') :
    url.target.toList.takeWhile (· != '?') = joined '/' [] (url.path.map String.toList) ∧
      url.target.toList.dropWhile (· != '?') = queryText url := by
  have hpath : ∀ c ∈ joined '/' [] (url.path.map String.toList), (c != '?') = true := by
    refine (forall_mem_joined ?_).2 ?_
    · rfl
    · rw [List.forall_mem_cons, List.forall_mem_map]
      refine ⟨nofun, fun segment hsegment c hc => ?_⟩
      rw [bne_iff_ne]
      exact h segment hsegment c hc
  rw [toList_target, List.takeWhile_append_of_pos hpath, List.dropWhile_append_of_pos hpath,
    queryText]
  cases url.query <;> simp

/-- **A request line tells the segments of the path.** -/
theorem pathNames_target (h : ∀ segment ∈ url.path, ∀ c ∈ segment.toList, c ≠ '/' ∧ c ≠ '?') :
    pathNames url.target = decoded url.path := by
  rw [pathNames, (split_target fun segment hsegment c hc => (h segment hsegment c hc).2).1]
  cases hpath : url.path with
  | nil => rfl
  | cons first rest =>
    have hslash : ∀ segment ∈ (first :: rest).map String.toList, '/' ∉ segment := by
      rw [List.forall_mem_map]
      exact fun segment hsegment hc => (h segment (hpath ▸ hsegment) '/' hc).1 rfl
    rw [List.map_cons, List.forall_mem_cons] at hslash
    simp only [List.map_cons, joined_cons, List.nil_append]
    rw [splitOn_joined _ hslash.2, List.splitOn_eq_singleton hslash.1, decoded]
    simp

/-! ## Queries -/

theorem queryParts_target (h : ∀ segment ∈ url.path, ∀ c ∈ segment.toList, c ≠ '?') :
    queryParts url.target = stretches (url.query.getD "").toList := by
  rw [queryParts, (split_target h).2, queryText]
  cases url.query <;> rfl

/-- **Pairs that are appended to a query stand at its end.** -/
theorem stretches_appendPairs {pairs : List (String × String)}
    (h : ∀ pair ∈ pairs, '&' ∉ pairText pair) :
    stretches ((url.appendPairs pairs).query.getD "").toList =
      stretches (url.query.getD "").toList ++ pairs.map pairText := by
  have hamp := ampersand_not_mem_map h
  have hfilter : (pairs.map pairText).filter (!·.isEmpty) = pairs.map pairText := by
    rw [List.filter_eq_self, List.forall_mem_map]
    intro pair hpair
    simp [pairText]
  by_cases hgiven : (url.query.getD "").toList = []
  · have hnone : stretches [] = [] := rfl
    rw [hgiven, hnone, List.nil_append]
    by_cases hpairs : pairs = []
    · rw [(query_appendPairs_eq_none_iff hgiven).2 hpairs, hpairs]
      rfl
    · rw [query_appendPairs_of_empty hgiven hpairs, Option.getD_some, String.toList_ofList, stretches,
        List.splitOn_intercalate _ hamp (by simpa using hpairs), hfilter]
  · rw [query_appendPairs_of_given hgiven, Option.getD_some, String.toList_ofList, stretches,
      splitOn_joined _ hamp, List.filter_append, hfilter, stretches]

/-- **The pairs stand after the query of the URL** in the request line, and there is nothing else. -/
theorem queryParts_appendPairs {pairs : List (String × String)}
    (hpath : ∀ segment ∈ url.path, ∀ c ∈ segment.toList, c ≠ '/' ∧ c ≠ '?')
    (h : ∀ pair ∈ pairs, '&' ∉ pairText pair) :
    queryParts (url.appendPairs pairs).target =
      stretches (url.query.getD "").toList ++ pairs.map pairText := by
  rw [queryParts_target, stretches_appendPairs h]
  exact fun segment hsegment c hc => (hpath segment hsegment c hc).2

end RequestBoard.Url
