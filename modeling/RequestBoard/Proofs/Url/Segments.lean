import RequestBoard.Proofs.Text.Parts
import RequestBoard.Proofs.Url.Escape

/-!
# The segments of a path

A path is read from a text in three steps: the text is split at its slashes, dot segments are resolved, and
what is left is percent-encoded.  None of them makes anything longer, so if names joined by slashes come
back from a path, then nothing was lost on the way: the names have no slashes in them, none of them is a
dot segment, and none has an escape.

* `Url.extent_parts` — a text is split at its slashes with nothing lost.
* `Url.IsLiteral`, `Url.resolve_of_literal` — the segments that are left as they are.
* `Url.exists_resolve_cons` — what one segment more makes of those before it.
* `Url.extent_resolve_lt` — **segments that are not literal lose something**.
* `Url.decoded_pathOf_iff` — **names come back from a path** if they are literal, and only then.
-/

namespace RequestBoard.Url

/-! ## Extents -/

/-- The length of texts with a separator for each. -/
def extent : List Bytes → Nat
  | [] => 0
  | text :: texts => text.length + 1 + extent texts

@[simp] theorem extent_nil : extent [] = 0 := rfl

@[simp] theorem extent_cons (text : Bytes) (texts : List Bytes) :
    extent (text :: texts) = text.length + 1 + extent texts := rfl

theorem extent_append (texts more : List Bytes) :
    extent (texts ++ more) = extent texts + extent more := by
  induction texts with
  | nil => simp
  | cons text texts ih =>
    rw [List.cons_append, extent_cons, extent_cons, ih]
    omega

theorem extent_reverse (texts : List Bytes) : extent texts.reverse = extent texts := by
  induction texts with
  | nil => rfl
  | cons text texts ih =>
    rw [List.reverse_cons, extent_append, ih, extent_cons, extent_cons, extent_nil]
    omega

theorem extent_tail_le (texts : List Bytes) : extent texts.tail ≤ extent texts := by
  cases texts with
  | nil => exact le_refl _
  | cons text texts =>
    rw [List.tail_cons, extent_cons]
    omega

/-- Joining names takes up a separator less than their extent. -/
theorem extent_map_bytes (first : List Char) (rest : List (List Char)) :
    extent ((first :: rest).map Utf8.bytes) = (Utf8.bytes (joined '/' first rest)).length + 1 := by
  induction rest generalizing first with
  | nil => simp [joined]
  | cons second rest ih =>
    have hslash : (String.utf8EncodeChar '/').length = 1 := rfl
    rw [List.map_cons, extent_cons, ih, joined_cons, Utf8.bytes_append, Utf8.bytes_cons,
      List.length_append, List.length_append, hslash]
    omega

/-- Splitting at the slashes loses nothing. -/
theorem extent_parts (text : List Char) :
    extent ((parts isSlash text).map Utf8.bytes) = (Utf8.bytes text).length + 1 := by
  induction text with
  | nil => rfl
  | cons c text ih =>
    cases hslash : isSlash c with
    | true =>
      have hlength : (String.utf8EncodeChar c).length = 1 := by
        rw [isSlash, Bool.or_eq_true, beq_iff_eq, beq_iff_eq] at hslash
        rcases hslash with rfl | rfl <;> rfl
      rw [parts_of_separates hslash, List.map_cons, extent_cons, ih, Utf8.bytes_cons,
        List.length_append, hlength, Utf8.bytes_nil, List.length_nil]
      omega
    | false =>
      rw [parts, List.map_cons, extent_cons] at ih
      rw [parts_of_not hslash, List.map_cons, extent_cons, Utf8.bytes_cons, Utf8.bytes_cons,
        List.length_append, List.length_append]
      omega

/-! ## Dot segments -/

/-- The segment is kept as it is: it is neither a dot segment nor one with an escape. -/
structure IsLiteral (segment : List Char) : Prop where
  notDot : isDot segment = false
  notDotDot : isDotDot segment = false
  unescaped : Unescaped segment

/-- A character is its lower-case form, or the capital of it. -/
theorem eq_or_of_toLower {c d : Char} (h : c.toLower = d) :
    c = d ∨ 0x61 ≤ d.toNat ∧ c.toNat + 0x20 = d.toNat := by
  delta Char.toLower at h
  split at h
  case isTrue hupper =>
    have hfirst : 0x41 ≤ c.toNat := by simpa [UInt32.le_iff_toNat_le] using hupper.1
    have hlast : c.toNat ≤ 0x5A := by simpa [UInt32.le_iff_toNat_le] using hupper.2
    have hd : d.toNat = (c.toNat + 0x20) % 0x100000000 := by
      rw [← h]
      simp
    omega
  case isFalse => exact Or.inl h

theorem eq_of_toLower {c d : Char} (h : c.toLower = d) (hd : d.toNat < 0x61) : c = d := by
  rcases eq_or_of_toLower h with heq | ⟨hletter, -⟩
  · exact heq
  · omega

/-- The spelling of a dot by an escape is one, whatever the case of its letter. -/
theorem beginsEscaped_of_map_toLower {text rest : List Char}
    (h : text.map Char.toLower = '%' :: '2' :: 'e' :: rest) : beginsEscaped text = true := by
  simp only [List.map_eq_cons_iff] at h
  obtain ⟨a, _, rfl, ha, b, _, rfl, hb, c, more, rfl, hc, -⟩ := h
  obtain rfl := eq_of_toLower ha (by decide)
  obtain rfl := eq_of_toLower hb (by decide)
  have hdigit : c = 'e' ∨ c = 'E' := by
    refine (eq_or_of_toLower hc).imp id fun hcapital => ?_
    have hnat : c.toNat = 'E'.toNat := by
      have he : 'e'.toNat = 'E'.toNat + 0x20 := rfl
      omega
    exact Char.toNat_inj.1 hnat
  rcases hdigit with rfl | rfl <;> rfl

/-- Nothing in a text without escapes is such a spelling. -/
theorem map_toLower_ne_of_suffix {text segment : List Char} (h : Unescaped segment)
    (htext : text <:+ segment) (rest : List Char) :
    text.map Char.toLower ≠ '%' :: '2' :: 'e' :: rest := by
  intro hlower
  exact Bool.false_ne_true ((h text htext).symm.trans (beginsEscaped_of_map_toLower hlower))

/-- Without escapes there is one dot segment of each kind. -/
theorem isDot_iff_of_unescaped {segment : List Char} (h : Unescaped segment) :
    isDot segment = true ↔ segment = ['.'] := by
  constructor
  · intro hdot
    rw [isDot, Bool.or_eq_true, beq_iff_eq, beq_iff_eq] at hdot
    rcases hdot with hlower | hescape
    · obtain ⟨a, _, rfl, ha, hnil⟩ := List.map_eq_cons_iff.1 hlower
      obtain rfl := List.map_eq_nil_iff.1 hnil
      rw [eq_of_toLower ha (by decide)]
    · exact absurd hescape (map_toLower_ne_of_suffix h List.suffix_rfl [])
  · rintro rfl
    decide

theorem isDotDot_iff_of_unescaped {segment : List Char} (h : Unescaped segment) :
    isDotDot segment = true ↔ segment = ['.', '.'] := by
  constructor
  · intro hdots
    rw [isDotDot, List.any_eq_true] at hdots
    obtain ⟨spelling, hspelling, hlower⟩ := hdots
    replace hlower := (beq_iff_eq.1 hlower).symm
    simp only [List.mem_cons, List.not_mem_nil, or_false] at hspelling
    rcases hspelling with rfl | rfl | rfl | rfl
    · change segment.map Char.toLower = ['.', '.'] at hlower
      obtain ⟨a, _, rfl, ha, hrest⟩ := List.map_eq_cons_iff.1 hlower
      obtain ⟨b, _, rfl, hb, hnil⟩ := List.map_eq_cons_iff.1 hrest
      obtain rfl := List.map_eq_nil_iff.1 hnil
      rw [eq_of_toLower ha (by decide), eq_of_toLower hb (by decide)]
    · obtain ⟨a, rest, rfl, -, hrest⟩ := List.map_eq_cons_iff.1 hlower
      exact absurd hrest (map_toLower_ne_of_suffix h (List.suffix_cons a rest) _)
    · exact absurd hlower (map_toLower_ne_of_suffix h List.suffix_rfl _)
    · exact absurd hlower (map_toLower_ne_of_suffix h List.suffix_rfl _)
  · rintro rfl
    decide

theorem isLiteral_iff {segment : List Char} :
    IsLiteral segment ↔ Unescaped segment ∧ segment ≠ ['.'] ∧ segment ≠ ['.', '.'] := by
  constructor
  · intro h
    refine ⟨h.unescaped, ?_, ?_⟩
    · rw [Ne, ← isDot_iff_of_unescaped h.unescaped, h.notDot]
      exact Bool.false_ne_true
    · rw [Ne, ← isDotDot_iff_of_unescaped h.unescaped, h.notDotDot]
      exact Bool.false_ne_true
  · rintro ⟨hunescaped, hdot, hdots⟩
    rw [Ne, ← isDot_iff_of_unescaped hunescaped, Bool.not_eq_true] at hdot
    rw [Ne, ← isDotDot_iff_of_unescaped hunescaped, Bool.not_eq_true] at hdots
    exact ⟨hdot, hdots, hunescaped⟩

theorem ne_nil_of_isDot {segment : List Char} (h : isDot segment = true) : segment ≠ [] := by
  rintro rfl
  exact absurd h (by decide)

theorem ne_nil_of_isDotDot {segment : List Char} (h : isDotDot segment = true) : segment ≠ [] := by
  rintro rfl
  exact absurd h (by decide)

/-! ## Resolving -/

variable {placed segments : List (List Char)}

theorem resolve_cons {segment : List Char} (h : IsLiteral segment) (rest : List (List Char)) :
    resolve placed (segment :: rest) = resolve (percentEncode inPathSet segment :: placed) rest := by
  cases rest <;> simp [resolve, h.notDot, h.notDotDot]

/-- Literal segments are only encoded. -/
theorem resolve_of_literal (h : ∀ segment ∈ segments, IsLiteral segment) :
    resolve placed segments = (segments.map (percentEncode inPathSet)).reverse ++ placed := by
  induction segments generalizing placed with
  | nil => rfl
  | cons segment rest ih =>
    obtain ⟨hsegment, hrest⟩ := List.forall_mem_cons.1 h
    rw [resolve_cons hsegment, ih hrest, List.map_cons, List.reverse_cons, List.append_assoc,
      List.singleton_append]

/-- What a segment may make of the segments that are placed before it. -/
structure Places (placed : List (List Char)) (segment : List Char) (next : List (List Char)) :
    Prop where
  /-- Nothing is new but the segment, or an empty one. -/
  mem : ∀ text ∈ next, text ∈ placed ∨ text = [] ∨ text = percentEncode inPathSet segment
  /-- At most as much is read of it as there was before, with the segment. -/
  extent_le : extent (next.map percentDecode) ≤
    extent (placed.map percentDecode) + ((Utf8.bytes segment).length + 1)
  /-- It is less unless the segment is literal. -/
  extent_lt : ¬ IsLiteral segment → extent (next.map percentDecode) <
    extent (placed.map percentDecode) + ((Utf8.bytes segment).length + 1)

theorem places_nil_cons {segment : List Char} {kept : List (List Char)} (h : segment ≠ [])
    (hkept : ∀ text ∈ kept, text ∈ placed)
    (hextent : extent (kept.map percentDecode) ≤ extent (placed.map percentDecode)) :
    Places placed segment ([] :: kept) := by
  have hpos := Utf8.length_bytes_pos h
  have hempty : extent (([] :: kept).map percentDecode) = 1 + extent (kept.map percentDecode) := by
    simp [percentDecode]
  refine ⟨?_, by omega, fun _ => by omega⟩
  rw [List.forall_mem_cons]
  exact ⟨Or.inr (Or.inl rfl), fun text htext => Or.inl (hkept text htext)⟩

theorem places_of_kept {segment : List Char} {kept : List (List Char)}
    (hkept : ∀ text ∈ kept, text ∈ placed)
    (hextent : extent (kept.map percentDecode) ≤ extent (placed.map percentDecode)) :
    Places placed segment kept :=
  ⟨fun text htext => Or.inl (hkept text htext), by omega, fun _ => by omega⟩

/-- A segment that is no dot segment is placed as it is, and an escape in it is read as one byte. -/
theorem places_percentEncode_cons {segment : List Char} (hdot : ¬ isDot segment = true)
    (hdots : ¬ isDotDot segment = true) :
    Places placed segment (percentEncode inPathSet segment :: placed) := by
  have hextent : extent ((percentEncode inPathSet segment :: placed).map percentDecode) =
      (percentDecode segment).length + 1 + extent (placed.map percentDecode) := by
    rw [List.map_cons, extent_cons, percentDecode_percentEncode]
  have hle := length_percentDecode_le segment
  refine ⟨?_, by omega, fun hliteral => ?_⟩
  · rw [List.forall_mem_cons]
    exact ⟨Or.inr (Or.inr rfl), fun text htext => Or.inl htext⟩
  · have hescaped : ¬ Unescaped segment := fun hunescaped =>
      hliteral ⟨by simpa using hdot, by simpa using hdots, hunescaped⟩
    have hlt := length_percentDecode_lt hescaped
    omega

/-- **One segment more.** -/
theorem exists_resolve_cons (placed : List (List Char)) (segment : List Char)
    (rest : List (List Char)) :
    ∃ next, resolve placed (segment :: rest) = resolve next rest ∧ Places placed segment next := by
  have hmem : ∀ text ∈ placed.tail, text ∈ placed := fun text => List.mem_of_mem_tail
  have htail : extent (placed.tail.map percentDecode) ≤ extent (placed.map percentDecode) := by
    rw [List.map_tail]
    exact extent_tail_le _
  -- at the end of a path a dot segment leaves an empty one behind
  by_cases hdots : isDotDot segment = true
  · cases rest with
    | nil =>
      exact ⟨[] :: placed.tail, by simp [resolve, hdots],
        places_nil_cons (ne_nil_of_isDotDot hdots) hmem htail⟩
    | cons second rest =>
      exact ⟨placed.tail, by simp [resolve, hdots], places_of_kept hmem htail⟩
  by_cases hdot : isDot segment = true
  · cases rest with
    | nil =>
      exact ⟨[] :: placed, by simp [resolve, hdots, hdot],
        places_nil_cons (ne_nil_of_isDot hdot) (fun _ => id) (le_refl _)⟩
    | cons second rest =>
      exact ⟨placed, by simp [resolve, hdots, hdot], places_of_kept (fun _ => id) (le_refl _)⟩
  · refine ⟨percentEncode inPathSet segment :: placed, ?_, places_percentEncode_cons hdot hdots⟩
    cases rest <;> simp [resolve, hdots, hdot]

/-- What a path has in it are segments that were encoded, and empty ones. -/
theorem mem_resolve {text : List Char} (h : text ∈ resolve placed segments) :
    text ∈ placed ∨ text = [] ∨ ∃ segment ∈ segments, text = percentEncode inPathSet segment := by
  induction segments generalizing placed with
  | nil => exact Or.inl h
  | cons segment rest ih =>
    obtain ⟨next, hnext, hplaces⟩ := exists_resolve_cons placed segment rest
    rw [hnext] at h
    rcases ih h with hmem | hempty | ⟨other, hother, htext⟩
    · rcases hplaces.mem text hmem with hplaced | hempty | htext
      · exact Or.inl hplaced
      · exact Or.inr (Or.inl hempty)
      · exact Or.inr (Or.inr ⟨segment, List.mem_cons_self, htext⟩)
    · exact Or.inr (Or.inl hempty)
    · exact Or.inr (Or.inr ⟨other, List.mem_cons_of_mem _ hother, htext⟩)

theorem extent_resolve_le (placed segments : List (List Char)) :
    extent ((resolve placed segments).map percentDecode) ≤
      extent (placed.map percentDecode) + extent (segments.map Utf8.bytes) := by
  induction segments generalizing placed with
  | nil => exact Nat.le_add_right _ _
  | cons segment rest ih =>
    obtain ⟨next, hnext, hplaces⟩ := exists_resolve_cons placed segment rest
    have hsegment := hplaces.extent_le
    have hrest := ih next
    rw [hnext, List.map_cons, extent_cons]
    omega

/-- **Segments that are not literal lose something** on the way through a path and back. -/
theorem extent_resolve_lt (placed : List (List Char))
    (h : ∃ segment ∈ segments, ¬ IsLiteral segment) :
    extent ((resolve placed segments).map percentDecode) <
      extent (placed.map percentDecode) + extent (segments.map Utf8.bytes) := by
  induction segments generalizing placed with
  | nil => simp at h
  | cons segment rest ih =>
    obtain ⟨next, hnext, hplaces⟩ := exists_resolve_cons placed segment rest
    rw [hnext, List.map_cons, extent_cons]
    rcases (List.exists_mem_cons_iff _ _ _).1 h with hliteral | hliteral
    · have hsegment := hplaces.extent_lt hliteral
      have hrest := extent_resolve_le next rest
      omega
    · have hsegment := hplaces.extent_le
      have hrest := ih next hliteral
      omega

/-! ## Paths -/

/-- The bytes that the segments of a path stand for. -/
def decoded (path : List String) : List Bytes := path.map fun segment => percentDecode segment.toList

theorem decoded_pathOf (text : List Char) :
    decoded (pathOf ('/' :: text)) = ((resolve [] (parts isSlash text)).map percentDecode).reverse := by
  simp [decoded, pathOf, Function.comp_def]

theorem extent_decoded_pathOf_le (text : List Char) :
    extent (decoded (pathOf ('/' :: text))) ≤ (Utf8.bytes text).length + 1 := by
  have hle := extent_resolve_le [] (parts isSlash text)
  rwa [extent_parts, List.map_nil, extent_nil, Nat.zero_add, ← extent_reverse, ← decoded_pathOf]
    at hle

theorem extent_decoded_pathOf_lt {text : List Char} (h : ∃ part ∈ parts isSlash text, ¬ IsLiteral part) :
    extent (decoded (pathOf ('/' :: text))) < (Utf8.bytes text).length + 1 := by
  have hlt := extent_resolve_lt [] h
  rwa [extent_parts, List.map_nil, extent_nil, Nat.zero_add, ← extent_reverse, ← decoded_pathOf]
    at hlt

/-- Literal parts come back from a path. -/
theorem decoded_pathOf_of_literal {text : List Char} (h : ∀ part ∈ parts isSlash text, IsLiteral part) :
    decoded (pathOf ('/' :: text)) = (parts isSlash text).map Utf8.bytes := by
  rw [decoded_pathOf, resolve_of_literal h, List.append_nil, List.map_reverse, List.reverse_reverse,
    List.map_map]
  refine List.map_congr_left fun part hpart => ?_
  rw [Function.comp_apply, percentDecode_percentEncode,
    percentDecode_of_unescaped (h part hpart).unescaped]

/-- **Names come back from a path** that is read from what is left of them joined by slashes just when all
of that is left, and the names are literal and have no slashes in them. -/
theorem decoded_pathOf_iff {first text : List Char} {rest : List (List Char)}
    (h : text.Sublist (joined '/' first rest)) :
    decoded (pathOf ('/' :: text)) = (first :: rest).map Utf8.bytes ↔
      text = joined '/' first rest ∧
        ∀ name ∈ first :: rest, (∀ c ∈ name, isSlash c = false) ∧ IsLiteral name := by
  constructor
  · intro hdecoded
    -- as much comes back as the names take up, so nothing can have been lost on the way
    have hextent : extent (decoded (pathOf ('/' :: text))) =
        (Utf8.bytes (joined '/' first rest)).length + 1 := by
      rw [hdecoded, extent_map_bytes]
    have hle := extent_decoded_pathOf_le text
    obtain rfl := Utf8.eq_of_sublist h (by omega)
    have hliteral : ∀ part ∈ parts isSlash (joined '/' first rest), IsLiteral part := by
      by_contra hnot
      push Not at hnot
      have hlt := extent_decoded_pathOf_lt hnot
      omega
    rw [decoded_pathOf_of_literal hliteral] at hdecoded
    have hnames : parts isSlash (joined '/' first rest) = first :: rest :=
      (List.map_inj_right fun _ _ => Utf8.bytes_inj.1).1 hdecoded
    refine ⟨rfl, fun name hname => ?_⟩
    rw [← hnames] at hname
    exact ⟨not_separates_of_mem_parts name hname, hliteral name hname⟩
  · rintro ⟨rfl, hnames⟩
    have hparts := parts_joined (rfl : isSlash '/' = true) fun name hname => (hnames name hname).1
    rw [decoded_pathOf_of_literal, hparts]
    rw [hparts]
    exact fun name hname => (hnames name hname).2

end RequestBoard.Url
