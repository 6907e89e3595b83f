import RequestBoard.Proofs.Text.Joined
import RequestBoard.Url

/-!
# The pairs of a query

Pairs are appended to whatever query a URL has.  If there is no ampersand in any of them, the request line
still tells which pairs they were.

* `Url.target_inj` — a request line tells the query.
* `Url.query_appendPairs_inj` — **a query tells the pairs** that were appended to a given URL.
-/

namespace RequestBoard.Url

/-- A request line tells the query, the path being known. -/
theorem target_inj {url other : Url} (h : url.path = other.path) :
    url.target = other.target ↔ url.query = other.query := by
  refine ⟨fun heq => ?_, fun heq => by rw [target, target, h, heq]⟩
  rw [target, target, h, String.ofList_inj, List.append_cancel_left_eq] at heq
  cases hquery : url.query with
  | none =>
    cases hother : other.query with
    | none => rfl
    | some text => simp [hquery, hother] at heq
  | some text =>
    cases hother : other.query with
    | none => simp [hquery, hother] at heq
    | some more => simpa [hquery, hother, String.toList_inj] using heq

variable {url : Url} {pairs pairs' : List (String × String)}

/-- The query of a URL that has none before. -/
theorem query_appendPairs_of_empty (h : (url.query.getD "").toList = []) (hpairs : pairs ≠ []) :
    (url.appendPairs pairs).query =
      some (String.ofList (['&'].intercalate (pairs.map pairText))) := by
  simp [appendPairs, h, hpairs]

theorem query_appendPairs_of_none (h : url.query.getD "" = "") :
    (url.appendPairs pairs).query =
      if pairs = [] then none else some (String.ofList (['&'].intercalate (pairs.map pairText))) := by
  have hgiven : (url.query.getD "").toList = [] := by rw [h, String.toList_empty]
  split
  case isTrue hpairs => simp [appendPairs, hgiven, hpairs]
  case isFalse hpairs => exact query_appendPairs_of_empty hgiven hpairs

/-- The query of a URL that has one before. -/
theorem query_appendPairs_of_given (h : (url.query.getD "").toList ≠ []) :
    (url.appendPairs pairs).query =
      some (String.ofList (joined '&' (url.query.getD "").toList (pairs.map pairText))) := by
  have hempty : (url.query.getD "").toList.isEmpty = false := by simpa using h
  simp only [appendPairs, hempty, Bool.false_eq_true, if_false, List.singleton_append,
    List.isEmpty_cons, intercalate_cons]

/-- If nothing is appended to nothing there is no query, and otherwise there is one. -/
theorem query_appendPairs_eq_none_iff (h : (url.query.getD "").toList = []) :
    (url.appendPairs pairs).query = none ↔ pairs = [] := by
  simp [appendPairs, h]

theorem ampersand_not_mem_map (h : ∀ pair ∈ pairs, '&' ∉ pairText pair) :
    ∀ text ∈ pairs.map pairText, '&' ∉ text := by
  intro text htext
  obtain ⟨pair, hpair, rfl⟩ := List.mem_map.1 htext
  exact h pair hpair

/-- **A query tells the pairs** that were appended to a given URL, if there is no ampersand in them. -/
theorem query_appendPairs_inj (h : ∀ pair ∈ pairs, '&' ∉ pairText pair)
    (h' : ∀ pair ∈ pairs', '&' ∉ pairText pair) :
    (url.appendPairs pairs).query = (url.appendPairs pairs').query ↔
      pairs.map pairText = pairs'.map pairText := by
  refine ⟨fun heq => ?_, fun htexts => by simp only [appendPairs, htexts]⟩
  have htexts := ampersand_not_mem_map h
  have htexts' := ampersand_not_mem_map h'
  by_cases hgiven : (url.query.getD "").toList = []
  -- splitting would not tell no pairs from one empty text, but without pairs there is no query
  · by_cases hpairs : pairs = []
    · rw [(query_appendPairs_eq_none_iff hgiven).2 hpairs, eq_comm,
        query_appendPairs_eq_none_iff hgiven] at heq
      rw [hpairs, heq]
    by_cases hpairs' : pairs' = []
    · rw [(query_appendPairs_eq_none_iff hgiven).2 hpairs',
        query_appendPairs_eq_none_iff hgiven] at heq
      exact absurd heq hpairs
    rw [query_appendPairs_of_empty hgiven hpairs, query_appendPairs_of_empty hgiven hpairs',
      Option.some.injEq, String.ofList_inj] at heq
    have hsplit := congrArg (List.splitOn '&') heq
    rwa [List.splitOn_intercalate _ htexts (by simpa using hpairs),
      List.splitOn_intercalate _ htexts' (by simpa using hpairs')] at hsplit
  · rw [query_appendPairs_of_given hgiven, query_appendPairs_of_given hgiven, Option.some.injEq,
      String.ofList_inj] at heq
    have hsplit := congrArg (List.splitOn '&') heq
    rwa [splitOn_joined _ htexts, splitOn_joined _ htexts', List.append_cancel_left_eq] at hsplit

end RequestBoard.Url
