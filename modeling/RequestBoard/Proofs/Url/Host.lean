import RequestBoard.Proofs.Text.Parts
import RequestBoard.Proofs.Url.Escape
import RequestBoard.Proofs.Url.Origin

/-!
# Hosts in a URL

A host stands in a URL between other things, and is parted from them before it is read: it ends where the
authority does or at the colon before the port, and tabs and line breaks in it do not count.  So a text
that spells a host spells the same host in a URL only if there is nothing in it of what parts a URL.
Reading sees to that: there are only digits, colons and dots between the brackets of an address, and none
of these characters in a name.

* `Host.isAddressChar_of_ipv6?` — what an IPv6 address is spelled with.
* `Host.IsSpelledOut`, `Host.isForbidden_of_ofName?` — what a name is not spelled with.
* `IsHost` — **a host as a URL spells it**.
* `isHost_iff_reads` — **a text that is read as a host is one in a URL**.
-/

namespace RequestBoard.Url

namespace Host

/-! ## Addresses in brackets -/

/-- A character of an IPv6 address. -/
def isAddressChar (c : Char) : Bool := (hexDigit? c).isSome || c == ':' || c == '.'

theorem isAddressChar_of_isDigit {c : Char} (h : c.isDigit = true) : isAddressChar c = true := by
  simp [isAddressChar, hexDigit?, h]

theorem isSome_of_mapM {α β : Type} {f : α → Option β} {items : List α} {values : List β}
    (h : items.mapM f = some values) : ∀ item ∈ items, (f item).isSome := by
  induction items generalizing values with
  | nil => exact nofun
  | cons item items ih =>
    rw [List.mapM_cons] at h
    simp only [Option.bind_eq_bind, Option.bind_eq_some_iff] at h
    obtain ⟨value, hvalue, rest, hrest, -⟩ := h
    rw [List.forall_mem_cons, hvalue]
    exact ⟨rfl, ih hrest⟩

/-- A text is spelled with the characters of an address if its parts are, and the separator is one. -/
theorem isAddressChar_of_parts {separator : Char} (h : isAddressChar separator = true)
    {text : List Char}
    (hparts : ∀ part ∈ parts (· == separator) text, ∀ c ∈ part, isAddressChar c = true) :
    ∀ c ∈ text, isAddressChar c = true := by
  intro c hc
  rcases separates_or_mem_parts (· == separator) c hc with hseparator | ⟨part, hpart, hmem⟩
  · rwa [beq_iff_eq.1 hseparator]
  · exact hparts part hpart c hmem

theorem isAddressChar_of_piece? {text : List Char} {piece : UInt16} (h : piece? text = some piece) :
    ∀ c ∈ text, isAddressChar c = true := by
  rw [piece?] at h
  split at h
  case isTrue => exact absurd h nofun
  case isFalse =>
    obtain ⟨digits, hdigits, -⟩ := Option.map_eq_some_iff.1 h
    intro c hc
    rw [isAddressChar, isSome_of_mapM hdigits c hc]
    rfl

theorem isAddressChar_of_byte? {text : List Char} {byte : Nat} (h : byte? text = some byte) :
    ∀ c ∈ text, isAddressChar c = true := by
  rw [byte?] at h
  split at h
  case isTrue => exact absurd h nofun
  case isFalse hspelled =>
    have hdigits : text.all Char.isDigit = true := by
      simp only [Bool.or_eq_true, not_or, Bool.not_eq_true', Bool.not_eq_false] at hspelled
      exact hspelled.1.2
    exact fun c hc => isAddressChar_of_isDigit (List.all_eq_true.1 hdigits c hc)

theorem isAddressChar_of_embedded? {text : List Char} {pieces : List UInt16}
    (h : embedded? text = some pieces) : ∀ c ∈ text, isAddressChar c = true := by
  refine isAddressChar_of_parts (rfl : isAddressChar '.' = true) fun part hpart => ?_
  rw [embedded?] at h
  split at h
  case h_1 hbytes =>
    obtain ⟨byte, hbyte⟩ := Option.isSome_iff_exists.1 (isSome_of_mapM hbytes part hpart)
    exact isAddressChar_of_byte? hbyte
  case h_2 => exact absurd h nofun

theorem isAddressChar_of_pieces? {stretches : List (List Char)} {pieces : List UInt16}
    (h : pieces? stretches = some pieces) :
    ∀ stretch ∈ stretches, ∀ c ∈ stretch, isAddressChar c = true := by
  induction stretches using pieces?.induct generalizing pieces with
  | case1 => exact nofun
  | case2 last hdot =>
    rw [pieces?, if_pos hdot] at h
    rw [List.forall_mem_singleton]
    exact isAddressChar_of_embedded? h
  | case3 last hdot =>
    rw [pieces?, if_neg hdot, Option.map_eq_some_iff] at h
    obtain ⟨piece, hpiece, -⟩ := h
    rw [List.forall_mem_singleton]
    exact isAddressChar_of_piece? hpiece
  | case4 stretch rest hrest ih =>
    simp only [pieces?, Option.bind_eq_some_iff, Option.map_eq_some_iff] at h
    obtain ⟨piece, hpiece, others, hothers, -⟩ := h
    rw [List.forall_mem_cons]
    exact ⟨isAddressChar_of_piece? hpiece, ih hothers⟩

theorem isAddressChar_of_side? {text : List Char} {pieces : List UInt16} (h : side? text = some pieces) :
    ∀ c ∈ text, isAddressChar c = true := by
  rw [side?] at h
  split at h
  case isTrue hempty => simp [List.isEmpty_iff.1 hempty]
  case isFalse => exact isAddressChar_of_parts (rfl : isAddressChar ':' = true) (isAddressChar_of_pieces? h)

theorem eq_of_cut? {text before after : List Char} (h : cut? text = some (before, after)) :
    text = before ++ ':' :: ':' :: after := by
  induction text using cut?.induct generalizing before with
  | case1 rest =>
    rw [cut?, Option.some.injEq, Prod.mk.injEq] at h
    rw [← h.1, ← h.2, List.nil_append]
  | case2 c rest hcut ih =>
    rw [cut?, Option.map_eq_some_iff] at h
    · obtain ⟨⟨lead, tail⟩, hlead, heq⟩ := h
      obtain ⟨rfl, rfl⟩ := Prod.mk.inj heq
      rw [ih hlead, List.cons_append]
    · exact hcut
  | case3 => exact absurd h (by simp [cut?])

/-- **An IPv6 address** is spelled with hexadecimal digits, colons and dots. -/
theorem isAddressChar_of_ipv6? {text : List Char} {address : Ipv6} (h : ipv6? text = some address) :
    ∀ c ∈ text, isAddressChar c = true := by
  rw [ipv6?] at h
  split at h
  case h_1 =>
    simp only [Option.bind_eq_bind, Option.bind_eq_some_iff] at h
    obtain ⟨pieces, hpieces, -⟩ := h
    exact isAddressChar_of_parts (rfl : isAddressChar ':' = true) (isAddressChar_of_pieces? hpieces)
  case h_2 before after hcut =>
    split at h
    case isTrue => exact absurd h nofun
    case isFalse =>
      simp only [Option.bind_eq_bind, Option.bind_eq_some_iff] at h
      obtain ⟨left, hleft, right, hright, -⟩ := h
      rw [eq_of_cut? hcut, List.forall_mem_append, List.forall_mem_cons, List.forall_mem_cons]
      exact ⟨isAddressChar_of_side? hleft, rfl, rfl, isAddressChar_of_side? hright⟩

/-! ## Names -/

variable {idna : Idna} {text : List Char} {host : Host}

/-- Characters that are in no name have no other case. -/
theorem toLower_of_isForbidden {c : Char} (h : isForbidden c = true) : c.toLower = c := by
  rw [isForbidden, Bool.or_eq_true, decide_eq_true_eq, List.contains_iff_mem] at h
  rcases h with hedge | hmem
  · delta Char.toLower
    split
    case isTrue hupper =>
      have hfirst : 0x41 ≤ c.toNat := by simpa [UInt32.le_iff_toNat_le] using hupper.1
      omega
    case isFalse => rfl
  · simp only [List.mem_cons, List.not_mem_nil, or_false] at hmem
    rcases hmem with rfl | rfl | rfl | rfl | rfl | rfl | rfl | rfl | rfl | rfl | rfl | rfl | rfl | rfl <;>
      rfl

/-- A name is spelled out: it has no escapes, and its ASCII form does not go by the tables. -/
structure IsSpelledOut (text : List Char) : Prop where
  unescaped : Unescaped text
  ascii : needsTables text = false

/-- **A name that is spelled out** has none of the characters in it that no domain name has. -/
theorem isForbidden_of_ofName? (hspelled : IsSpelledOut text) (h : ofName? idna text = some host) :
    ∀ c ∈ text, isForbidden c = false := by
  intro c hc
  rw [ofName?, percentDecode_of_unescaped hspelled.unescaped, Utf8.decode?_bytes] at h
  simp only [Option.bind_eq_bind, Option.bind_some, String.toList_ofList, toAscii?, hspelled.ascii,
    Bool.false_eq_true, if_false] at h
  split at h
  case isTrue => exact absurd h nofun
  case isFalse hallowed =>
    rw [Bool.or_eq_true, not_or, List.any_eq_true] at hallowed
    rw [← Bool.not_eq_true]
    intro hforbidden
    exact hallowed.2 ⟨c.toLower, List.mem_map_of_mem hc, by rwa [toLower_of_isForbidden hforbidden]⟩

theorem ofName?_nil (idna : Idna) : ofName? idna [] = none := by
  have hdecoded : Utf8.decode? (percentDecode []) = some "" := Utf8.decode?_bytes []
  rw [ofName?, hdecoded]
  rfl

/-! ## Reading -/

theorem parse?_of_ne (h : text.head? ≠ some '[') : parse? idna text = ofName? idna text := by
  cases text with
  | nil => rfl
  | cons first rest =>
    rw [parse?]
    rintro other heq
    rw [(List.cons.inj heq).1] at h
    exact h rfl

/-- What stands in brackets is spelled as an address is. -/
theorem exists_of_bracket {rest : List Char} (h : parse? idna ('[' :: rest) = some host) :
    ∃ inner, rest = inner ++ [']'] ∧ ∀ c ∈ inner, isAddressChar c = true := by
  rw [parse?] at h
  split at h
  case isTrue hlast =>
    obtain ⟨address, haddress, -⟩ := Option.map_eq_some_iff.1 h
    obtain ⟨inner, rfl⟩ := List.getLast?_eq_some_iff.1 hlast
    rw [List.dropLast_concat] at haddress
    exact ⟨inner, rfl, isAddressChar_of_ipv6? haddress⟩
  case isFalse => exact absurd h nofun

end Host

/-! ## Hosts as they are written -/

/-- The characters that end an authority or part it, and those that do not count in it. -/
def delimiters : List Char := ['/', '\\', '?', '#', '@', '\t', '\n', '\r']

/-- The text spells the host where it stands in a URL. -/
structure IsHost (idna : Host.Idna) (text : List Char) (host : Host) : Prop where
  reads : Host.parse? idna text = some host
  undelimited : ∀ c ∈ text, c ∉ delimiters
  /-- A colon parts the host from the port unless it stands in brackets. -/
  colon : ':' ∈ text → text.head? = some '['

variable {idna : Host.Idna} {text : List Char} {host : Host}

theorem IsHost.ne_nil (h : IsHost idna text host) : text ≠ [] := by
  rintro rfl
  have hreads : Host.ofName? idna [] = some host := h.reads
  rw [Host.ofName?_nil] at hreads
  exact absurd hreads nofun

theorem isHost_of_bracket {rest : List Char} (h : Host.parse? idna ('[' :: rest) = some host) :
    IsHost idna ('[' :: rest) host := by
  obtain ⟨inner, rfl, hinner⟩ := Host.exists_of_bracket h
  have hother : ∀ c ∈ delimiters, Host.isAddressChar c = false := by
    simp [delimiters, Host.isAddressChar, hexDigit?]
  refine ⟨h, ?_, fun _ => rfl⟩
  rw [List.forall_mem_cons, List.forall_mem_append, List.forall_mem_singleton]
  refine ⟨by decide, fun c hc hmem => ?_, by decide⟩
  exact Bool.false_ne_true ((hother c hmem).symm.trans (hinner c hc))

theorem isHost_of_spelledOut (hspelled : Host.IsSpelledOut text)
    (h : Host.ofName? idna text = some host) (hreads : Host.parse? idna text = some host) :
    IsHost idna text host := by
  have hallowed := Host.isForbidden_of_ofName? hspelled h
  have hforbidden : ∀ c ∈ delimiters, Host.isForbidden c = true := by
    simp [delimiters, Host.isForbidden]
  refine ⟨hreads, fun c hc hmem => ?_, fun hcolon => ?_⟩
  · exact Bool.false_ne_true ((hallowed c hc).symm.trans (hforbidden c hmem))
  · exact absurd (hallowed ':' hcolon) (by decide)

/-- **A text that is read as a host is one in a URL**, if it stands in brackets or is spelled out. -/
theorem isHost_iff_reads (h : text.head? = some '[' ∨ Host.IsSpelledOut text) :
    IsHost idna text host ↔ Host.parse? idna text = some host := by
  refine ⟨IsHost.reads, fun hreads => ?_⟩
  by_cases hbracket : text.head? = some '['
  · obtain ⟨rest, rfl⟩ := List.head?_eq_some_iff.1 hbracket
    exact isHost_of_bracket hreads
  · refine isHost_of_spelledOut (h.resolve_left hbracket) ?_ hreads
    rw [← Host.parse?_of_ne hbracket, hreads]

/-- Names are read in lower case, and numbers in any base and of any length. -/
example : Host.parse? Host.asciiOnly "ExAmple.ORG".toList = some (.domain "example.org") ∧
    Host.parse? Host.asciiOnly "0x7F.1".toList = some (.ipv4 0x7F000001) := by
  decide +kernel

/-- What looks like an address has to be one, and an escape has to stand for a character of a name. -/
example : ∀ text ∈ ["256.256.256.256", "[1:2]", "exa%mple"],
    Host.parse? Host.asciiOnly text.toList = none := by
  decide +kernel

end RequestBoard.Url
