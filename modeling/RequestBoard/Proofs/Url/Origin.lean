import Mathlib.Data.List.TakeWhile
import RequestBoard.Url

/-!
# The origin of a URL

The origin of a URL is what a connection is made to: whether it is secured, the host and the port.  They
are read from what stands between the scheme and the next slash, where slashes before the first other
character do not count.  So a text that ends in a slash settles the origin of all that begins with it,
unless there is nothing else in it after the scheme: then the host is whatever comes next.

* `Url.isSkipped` — the characters that are passed over on the way to the host.
* `Url.clean_append_slash` — what is left of a text with a slash in it.
* `Url.scheme?_append_slash` — the scheme of such a text, and what follows it.
* `Url.origin_append_slash` — **the origin is settled before the slash** if there is a host before it.
* `Url.parse?_of_skipped` — **the host comes after the slash** if there is none.
-/

namespace RequestBoard.Url

/-- Whether the connection is secured, the host and the port. -/
abbrev Origin := Bool × Host × Nat

/-- The origin of a URL. -/
def origin (url : Url) : Origin := (url.secure, url.host, url.port)

/-! ## Characters that do not count -/

/-- A control or a space, which does not count at the ends of a URL. -/
def isEdge (c : Char) : Bool := c.toNat ≤ 0x20

/-- A tab or a line break, which does not count anywhere. -/
def isBreak (c : Char) : Bool := c == '\t' || c == '\n' || c == '\r'

/-- A character that is passed over between the scheme and the host. -/
def isSkipped (c : Char) : Bool := isSlash c || isBreak c

/-- A text without the edges at its end. -/
def trimEnd (text : List Char) : List Char := (text.reverse.dropWhile isEdge).reverse

/-- A text without breaks. -/
def unbroken (text : List Char) : List Char := text.filter fun c => !isBreak c

theorem unbroken_append (text more : List Char) :
    unbroken (text ++ more) = unbroken text ++ unbroken more := List.filter_append ..

/-- What is dropped at the end of a text is what would be dropped after any character that stays. -/
theorem reverse_dropWhile_append_cons {p : Char → Bool} {c : Char} (h : p c = false)
    (text tail : List Char) :
    ((text ++ c :: tail).reverse.dropWhile p).reverse =
      text ++ c :: (tail.reverse.dropWhile p).reverse := by
  have hstays : (c :: text.reverse).dropWhile p = c :: text.reverse :=
    List.dropWhile_cons_of_neg (by simp [h])
  rw [List.reverse_append, List.reverse_cons, List.append_assoc, List.singleton_append,
    List.dropWhile_append, hstays]
  split
  case isTrue hnil => simp [List.isEmpty_iff.1 hnil]
  case isFalse => simp

/-- What is left of a text that begins with a character that counts, and has a slash in it. -/
theorem clean_append_slash {first : Char} (h : isEdge first = false) (text tail : List Char) :
    clean (first :: text ++ '/' :: tail) =
      unbroken (first :: text) ++ '/' :: unbroken (trimEnd tail) := by
  have hclean : clean (first :: text ++ '/' :: tail) =
      unbroken (trimEnd ((first :: (text ++ '/' :: tail)).dropWhile isEdge)) := rfl
  rw [hclean, List.dropWhile_cons_of_neg (by simp [h]), ← List.cons_append, trimEnd,
    reverse_dropWhile_append_cons rfl, ← trimEnd, unbroken_append]
  rfl

/-! ## Schemes -/

/-- The schemes of the URLs that requests can be sent to. -/
def schemes : List String := ["http", "https"]

/-- The scheme of an address, and what follows it up to a slash and after that. -/
theorem scheme?_append_slash {scheme : String} (h : scheme ∈ schemes) (text tail : List Char) :
    scheme? (clean (scheme.toList ++ ':' :: text ++ '/' :: tail)) =
      some (scheme.toList, unbroken text ++ '/' :: unbroken (trimEnd tail)) := by
  simp only [schemes, List.mem_cons, List.not_mem_nil, or_false] at h
  rcases h with rfl | rfl
  · exact congrArg scheme? (clean_append_slash (rfl : isEdge 'h' = false) ("ttp:".toList ++ text) tail)
  · exact congrArg scheme? (clean_append_slash (rfl : isEdge 'h' = false) ("ttps:".toList ++ text) tail)

/-! ## Authorities -/

/-- What the host and the port are read from. -/
def authority (rest : List Char) : List Char :=
  (rest.dropWhile isSlash).takeWhile fun c => !endsAuthority c

/-- What the path and the query are read from. -/
def resource (rest : List Char) : List Char :=
  ((rest.dropWhile isSlash).dropWhile fun c => !endsAuthority c).takeWhile (· != '#')

/-- The query that a resource ends with. -/
def queryOf? (resource : List Char) : Option String :=
  match resource.dropWhile (· != '?') with
  | [] => none
  | _ :: query => some (String.ofList (percentEncode inQuerySet query))

/-- Whether a scheme asks for a secured connection. -/
def secure? (scheme : List Char) : Option Bool :=
  if scheme == "https".toList then some true
  else if scheme == "http".toList then some false
  else none

/-- The origin with a host and what follows it. -/
def originAt? (idna : Host.Idna) (secure : Bool) (parts : List Char × List Char) : Option Origin :=
  (port? (if secure then 443 else 80) parts.2).bind fun port =>
    (Host.parse? idna parts.1).map fun host => (secure, host, port)

/-- The origin that a scheme and an authority spell. -/
def originOf? (idna : Host.Idna) (scheme authority : List Char) : Option Origin :=
  (secure? scheme).bind fun secure => originAt? idna secure (splitHost (afterUserinfo authority))

/-- The URL of a resource. -/
def located (resource : List Char) (origin : Origin) : Url :=
  { secure := origin.1
    host := origin.2.1
    port := origin.2.2
    path := pathOf (resource.takeWhile (· != '?'))
    query := queryOf? resource }

theorem map_originAt? {α : Type} (f : Origin → α) (idna : Host.Idna) (secure : Bool)
    (parts : List Char × List Char) :
    (originAt? idna secure parts).map f =
      (port? (if secure then 443 else 80) parts.2).bind fun port =>
        (Host.parse? idna parts.1).bind fun host => some (f (secure, host, port)) := by
  rw [originAt?, Option.map_bind]
  refine congrArg _ (funext fun port => ?_)
  rw [Function.comp_apply, Option.map_map, Option.map_eq_bind]
  rfl

/-- **A URL is its origin and its resource**, and the one is read apart from the other. -/
theorem parse?_eq (idna : Host.Idna) {text : String} {scheme rest : List Char}
    (h : scheme? (clean text.toList) = some (scheme, rest)) :
    parse? idna text = (originOf? idna scheme (authority rest)).map (located (resource rest)) := by
  rw [parse?, h, originOf?, secure?]
  simp only [Option.bind_eq_bind, Option.bind_some]
  split
  · exact (map_originAt? (located (resource rest)) idna true _).symm
  · split
    · exact (map_originAt? (located (resource rest)) idna false _).symm
    · rfl

/-- Every URL that is read is the URL of a resource. -/
theorem exists_located {idna : Host.Idna} {text : String} {url : Url} (h : parse? idna text = some url) :
    ∃ resource origin, located resource origin = url := by
  cases hscheme : scheme? (clean text.toList) with
  | none =>
    rw [parse?, hscheme] at h
    exact absurd h nofun
  | some stretches =>
    rw [parse?_eq idna hscheme, Option.map_eq_some_iff] at h
    obtain ⟨origin, -, hlocated⟩ := h
    exact ⟨_, origin, hlocated⟩

/-- An authority that begins before a slash ends there. -/
theorem authority_append_slash {text : List Char} (h : ∃ c ∈ text, isSlash c = false)
    (tail : List Char) : authority (text ++ '/' :: tail) = authority text := by
  have hnil : text.dropWhile isSlash ≠ [] := by
    obtain ⟨c, hc, hslash⟩ := h
    intro hnil
    rw [List.dropWhile_eq_nil_iff.1 hnil c hc] at hslash
    exact absurd hslash (by decide)
  have hends : ('/' :: tail).takeWhile (fun c => !endsAuthority c) = [] := rfl
  rw [authority, List.dropWhile_append, if_neg (by simpa using hnil), List.takeWhile_append, hends,
    List.append_nil]
  split
  case isTrue hlength => exact ((List.takeWhile_prefix _).eq_of_length hlength).symm
  case isFalse => rfl

/-! ## Addresses with a slash -/

variable (idna : Host.Idna) {scheme : String} {text : List Char}

/-- **The origin is settled before the slash** if a host may begin before it: whatever stands after the
slash, and whether or not there is a URL at all. -/
theorem origin_append_slash (hscheme : scheme ∈ schemes) (h : ∃ c ∈ text, isSkipped c = false)
    {address : String} {tail : List Char}
    (haddress : address.toList = scheme.toList ++ ':' :: text ++ '/' :: tail) :
    (parse? idna address).map origin = originOf? idna scheme.toList (authority (unbroken text)) := by
  have hhost : ∃ c ∈ unbroken text, isSlash c = false := by
    obtain ⟨c, hc, hskipped⟩ := h
    rw [isSkipped, Bool.or_eq_false_iff] at hskipped
    exact ⟨c, List.mem_filter.2 ⟨hc, by rw [hskipped.2]; rfl⟩, hskipped.1⟩
  rw [parse?_eq idna (haddress ▸ scheme?_append_slash hscheme text tail), Option.map_map,
    authority_append_slash hhost]
  exact congrFun Option.map_id _

/-- **The host comes after the slash** if everything before it is passed over: it makes no difference
then how much that is. -/
theorem parse?_of_skipped (hscheme : scheme ∈ schemes) {text' : List Char}
    (h : ∀ c ∈ text, isSkipped c = true) (h' : ∀ c ∈ text', isSkipped c = true)
    {address address' : String} {tail : List Char}
    (haddress : address.toList = scheme.toList ++ ':' :: text ++ '/' :: tail)
    (haddress' : address'.toList = scheme.toList ++ ':' :: text' ++ '/' :: tail) :
    parse? idna address = parse? idna address' := by
  have hdrop : ∀ text : List Char, (∀ c ∈ text, isSkipped c = true) →
      (unbroken text ++ '/' :: unbroken (trimEnd tail)).dropWhile isSlash =
        (unbroken (trimEnd tail)).dropWhile isSlash := by
    intro text hskipped
    rw [List.dropWhile_append_of_pos]
    · rfl
    · intro c hc
      obtain ⟨hmem, hbreak⟩ := List.mem_filter.1 hc
      have hc := hskipped c hmem
      simpa [isSkipped, show isBreak c = false by simpa using hbreak] using hc
  rw [parse?_eq idna (haddress ▸ scheme?_append_slash hscheme text tail),
    parse?_eq idna (haddress' ▸ scheme?_append_slash hscheme text' tail)]
  simp only [authority, resource, hdrop text h, hdrop text' h']

end RequestBoard.Url
