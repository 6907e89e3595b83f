import RequestBoard.Proofs.Url.Host

/-!
# The URL of a server

A URL that is `http`, a host and a port, and then a slash with any text after it, is one that a request
can be sent to.  The host and the port are read from it, and the path and the query from the slash and the
text.

* `Url.IsPort` — a port as a URL spells it.
* `Url.splitHost_server` — a host and a port are parted as they were put together.
* `Url.originOf?_server` — the origin is what they say.
* `Url.parse?_server` — **the rest of such a URL is its path and its query**.
-/

namespace RequestBoard.Url

/-! ## Hosts and ports -/

/-- A port as a URL spells it: a number below 65536 in decimal digits. -/
structure IsPort (text : List Char) : Prop where
  nonempty : text ≠ []
  digits : ∀ c ∈ text, c.isDigit = true
  bounded : decimal text < 65536

instance (text : List Char) : Decidable (IsPort text) :=
  decidable_of_iff (text ≠ [] ∧ text.all Char.isDigit = true ∧ decimal text < 65536) <| by
    rw [List.all_eq_true]
    exact ⟨fun ⟨nonempty, digits, bounded⟩ => ⟨nonempty, digits, bounded⟩,
      fun h => ⟨h.nonempty, h.digits, h.bounded⟩⟩

theorem of_not_mem_delimiters {c : Char} (h : c ∉ delimiters) :
    endsAuthority c = false ∧ c ≠ '@' ∧ isBreak c = false := by
  simpa [delimiters, endsAuthority, isSlash, isBreak, and_assoc] using h

variable {idna : Host.Idna} {host port : List Char} {address : Host}

theorem IsPort.not_mem_delimiters (h : IsPort port) : ∀ c ∈ port, c ∉ delimiters := by
  intro c hc hmem
  have hother : ∀ d ∈ delimiters, d.isDigit = false := by simp [delimiters]
  exact Bool.false_ne_true ((hother c hmem).symm.trans (h.digits c hc))

/-- A host and a port are parted at the colon between them. -/
theorem splitHost_server (h : IsHost idna host address) (port : List Char) :
    splitHost (host ++ ':' :: port) = (host, ':' :: port) := by
  obtain ⟨first, rest, rfl⟩ := List.exists_cons_of_ne_nil h.ne_nil
  by_cases hbracket : first = '['
  -- in brackets there may be colons, but there is no bracket before the last
  · subst hbracket
    obtain ⟨inner, rfl, hinner⟩ := Host.exists_of_bracket h.reads
    have hinside : ∀ c ∈ inner, (c != ']') = true := by
      intro c hc
      rw [bne_iff_ne]
      rintro rfl
      exact absurd (hinner ']' hc) (by decide)
    simp only [splitHost, List.cons_append, List.append_assoc, List.nil_append,
      List.takeWhile_append_of_pos hinside, List.dropWhile_append_of_pos hinside]
    simp
  · have hcolon : ∀ c ∈ first :: rest, (c != ':') = true := by
      intro c hc
      rw [bne_iff_ne]
      rintro rfl
      have hhead := h.colon hc
      rw [List.head?_cons, Option.some.injEq] at hhead
      exact hbracket hhead
    have hsplit : splitHost (first :: rest ++ ':' :: port) =
        ((first :: rest ++ ':' :: port).takeWhile (· != ':'),
          (first :: rest ++ ':' :: port).dropWhile (· != ':')) := by
      rw [splitHost]
      rintro other heq
      exact hbracket (List.cons.inj heq).1
    rw [hsplit, List.takeWhile_append_of_pos hcolon, List.dropWhile_append_of_pos hcolon]
    simp

theorem port?_server (h : IsPort port) (standard : Nat) :
    port? standard (':' :: port) = some (decimal port) := by
  have hall : port.all Char.isDigit = true := List.all_eq_true.2 h.digits
  rw [port?, hall, decide_eq_true h.bounded]
  · rfl
  · exact h.nonempty

/-! ## Servers -/

/-- The authority of a server. -/
def server (host port : List Char) : List Char := host ++ ':' :: port

theorem not_mem_delimiters_server (hhost : IsHost idna host address) (hport : IsPort port) :
    ∀ c ∈ server host port, c ∉ delimiters := by
  intro c hc
  rw [server, List.mem_append, List.mem_cons] at hc
  rcases hc with hc | rfl | hc
  · exact hhost.undelimited c hc
  · decide
  · exact hport.not_mem_delimiters c hc

theorem endsAuthority_server (hhost : IsHost idna host address) (hport : IsPort port) :
    ∀ c ∈ server host port, (!endsAuthority c) = true := by
  intro c hc
  rw [(of_not_mem_delimiters (not_mem_delimiters_server hhost hport c hc)).1]
  rfl

/-- The host begins after the slashes of the scheme. -/
theorem dropWhile_isSlash_server (hhost : IsHost idna host address) (hport : IsPort port)
    (tail : List Char) :
    ('/' :: '/' :: server host port ++ tail).dropWhile isSlash = server host port ++ tail := by
  obtain ⟨first, rest, hfirst⟩ : ∃ first rest, server host port = first :: rest :=
    List.exists_cons_of_ne_nil (by simp [server])
  have hends := endsAuthority_server hhost hport first (hfirst ▸ List.mem_cons_self)
  have hslash : isSlash first = false := by
    rw [endsAuthority, Bool.or_assoc, Bool.not_or, Bool.and_eq_true, Bool.not_eq_true'] at hends
    exact hends.1
  rw [hfirst, List.cons_append, List.cons_append, List.cons_append,
    List.dropWhile_cons_of_pos rfl, List.dropWhile_cons_of_pos rfl,
    List.dropWhile_cons_of_neg (by simp [hslash])]

theorem authority_server (hhost : IsHost idna host address) (hport : IsPort port) (tail : List Char) :
    authority ('/' :: '/' :: server host port ++ '/' :: tail) = server host port := by
  rw [authority, dropWhile_isSlash_server hhost hport,
    List.takeWhile_append_of_pos (endsAuthority_server hhost hport),
    List.takeWhile_cons_of_neg (by decide), List.append_nil]

theorem resource_server (hhost : IsHost idna host address) (hport : IsPort port) (tail : List Char) :
    resource ('/' :: '/' :: server host port ++ '/' :: tail) =
      '/' :: tail.takeWhile (· != '#') := by
  rw [resource, dropWhile_isSlash_server hhost hport,
    List.dropWhile_append_of_pos (endsAuthority_server hhost hport),
    List.dropWhile_cons_of_neg (by decide), List.takeWhile_cons_of_pos (by decide)]

/-- **The origin of a server** is its host and its port. -/
theorem originOf?_server (hhost : IsHost idna host address) (hport : IsPort port) :
    originOf? idna "http".toList (server host port) = some (false, address, decimal port) := by
  have huser : afterUserinfo (server host port) = server host port := by
    rw [afterUserinfo, List.reverse_eq_iff, List.takeWhile_eq_self_iff]
    intro c hc
    rw [bne_iff_ne]
    exact (of_not_mem_delimiters
      (not_mem_delimiters_server hhost hport c (List.mem_reverse.1 hc))).2.1
  have hsecure : secure? "http".toList = some false := rfl
  rw [originOf?, hsecure, Option.bind_some, huser, server, splitHost_server hhost, originAt?,
    port?_server hport, Option.bind_some, hhost.reads, Option.map_some]

/-- The part of a text after a server that becomes part of a request. -/
def requested (tail : List Char) : List Char := (unbroken (trimEnd tail)).takeWhile (· != '#')

/-- **A URL of a server** can be requested.  Its origin is the server, and what stands after it is the path
and the query. -/
theorem parse?_server (hhost : IsHost idna host address) (hport : IsPort port) {text : String}
    {tail : List Char}
    (htext : text.toList =
      "http".toList ++ ':' :: ('/' :: '/' :: server host port) ++ '/' :: tail) :
    parse? idna text =
      some (located ('/' :: requested tail) (false, address, decimal port)) := by
  have hunbroken : unbroken ('/' :: '/' :: server host port) = '/' :: '/' :: server host port := by
    rw [unbroken, List.filter_eq_self, List.forall_mem_cons, List.forall_mem_cons]
    refine ⟨rfl, rfl, fun c hc => ?_⟩
    rw [(of_not_mem_delimiters (not_mem_delimiters_server hhost hport c hc)).2.2]
    rfl
  have hscheme := scheme?_append_slash (by decide : "http" ∈ schemes)
    ('/' :: '/' :: server host port) tail
  rw [← htext, hunbroken] at hscheme
  rw [parse?_eq idna hscheme, authority_server hhost hport, resource_server hhost hport,
    originOf?_server hhost hport, Option.map_some, requested]

/-! ## What stands after a server -/

/-- The part of a text that a path is read from. -/
def pathText (tail : List Char) : List Char := (requested tail).takeWhile (· != '?')

theorem trimEnd_sublist (tail : List Char) : (trimEnd tail).Sublist tail := by
  rw [trimEnd, ← List.reverse_sublist, List.reverse_reverse]
  exact List.dropWhile_sublist _

theorem requested_sublist (tail : List Char) : (requested tail).Sublist (trimEnd tail) :=
  (List.takeWhile_sublist _).trans List.filter_sublist

theorem pathText_sublist (tail : List Char) : (pathText tail).Sublist tail :=
  (List.takeWhile_sublist _).trans ((requested_sublist tail).trans (trimEnd_sublist tail))

theorem trimEnd_eq_self_iff {tail : List Char} :
    trimEnd tail = tail ↔ ∀ c ∈ tail.getLast?, isEdge c = false := by
  rw [trimEnd, List.reverse_eq_iff, ← List.head?_reverse, List.dropWhile_eq_self_iff]
  cases tail.reverse <;> simp

/-- **A path is read from all of a text** if nothing in the text is left out or ends the path. -/
theorem pathText_eq_self_iff {tail : List Char} :
    pathText tail = tail ↔ (∀ c ∈ tail, isBreak c = false ∧ c ≠ '#' ∧ c ≠ '?') ∧
      ∀ c ∈ tail.getLast?, isEdge c = false := by
  rw [← trimEnd_eq_self_iff]
  constructor
  · intro h
    have hsublist : (pathText tail).Sublist (trimEnd tail) :=
      (List.takeWhile_sublist _).trans (requested_sublist tail)
    rw [h] at hsublist
    refine ⟨fun c hc => ?_, (trimEnd_sublist tail).eq_of_length_le hsublist.length_le⟩
    rw [← h] at hc
    have hquestion := List.mem_takeWhile_imp hc
    have hrequested : c ∈ requested tail := (List.takeWhile_sublist _).subset hc
    have hhash := List.mem_takeWhile_imp hrequested
    have hbreak := (List.mem_filter.1 ((List.takeWhile_sublist _).subset hrequested)).2
    exact ⟨by simpa using hbreak, by simpa using hhash, by simpa using hquestion⟩
  · rintro ⟨hkept, htrim⟩
    have hunbroken : unbroken tail = tail := by
      rw [unbroken, List.filter_eq_self]
      intro c hc
      simp [(hkept c hc).1]
    have hhash : tail.takeWhile (· != '#') = tail := by
      rw [List.takeWhile_eq_self_iff]
      intro c hc
      simpa using (hkept c hc).2.1
    have hquestion : tail.takeWhile (· != '?') = tail := by
      rw [List.takeWhile_eq_self_iff]
      intro c hc
      simpa using (hkept c hc).2.2
    rw [pathText, requested, htrim, hunbroken, hhash, hquestion]

variable (origin : Origin) (tail : List Char)

theorem path_located : (located ('/' :: requested tail) origin).path = pathOf ('/' :: pathText tail) := by
  rw [located, List.takeWhile_cons_of_pos (by decide), pathText]

/-- There is no query if a path is read from all of a text. -/
theorem query_located (h : pathText tail = tail) :
    (located ('/' :: requested tail) origin).query = none := by
  have hquestion : ∀ c ∈ requested tail, (c != '?') = true := by
    intro c hc
    have hmem := ((requested_sublist tail).trans (trimEnd_sublist tail)).subset hc
    simpa using ((pathText_eq_self_iff.1 h).1 c hmem).2.2
  have hnone : ('/' :: requested tail).dropWhile (· != '?') = [] := by
    rw [List.dropWhile_eq_nil_iff, List.forall_mem_cons]
    exact ⟨rfl, hquestion⟩
  rw [located, queryOf?, hnone]

end RequestBoard.Url
