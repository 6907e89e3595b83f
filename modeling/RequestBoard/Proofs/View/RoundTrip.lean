import Mathlib.Data.List.Basic
import RequestBoard.Proofs.Store.Rows
import RequestBoard.View.Codec

/-!
# Rows and responses come back as they were written

Writing leaves out what is absent, and reading takes a null id or document for an absent one.  So what is
written comes back as it was but for null documents, and nobody who works on the rows can tell.

* `Row.normal`, `Response.normal` — the same with null documents taken away.
* `Row.decode?_congr` — **a row is read off its four members**, in whatever form and order they come.
* `Row.decode?_encode`, `Response.decode?_encode` — what is written comes back in its normal form.
* `Row.normal_of_decode?`, `Response.normal_of_decode?` — what was read is in normal form already.
* `identifiers_map_normal`, `Store.merge_map_normal` — normal forms are looked up and merged alike.
* `decode_encode_up_to_null` — **the result**.
-/

namespace RequestBoard

namespace View

/-! ## Normal forms -/

/-- The row without a null document. -/
def Row.normal (row : Row) : Row := { row with doc := row.doc.filter fun doc => !doc.isNull }

/-- The response without null documents. -/
def Response.normal (response : Response) : Response :=
  { response with rows := response.rows.map Row.normal }

/-- A row that has no null document is in normal form. -/
theorem Row.normal_eq_self {row : Row} (h : row.doc ≠ some .null) : row.normal = row := by
  obtain ⟨id, key, value, doc⟩ := row
  have hdoc : (doc.filter fun doc => !doc.isNull) = doc := by
    cases doc with
    | none => rfl
    | some doc =>
      cases doc with
      | null => exact absurd rfl h
      | bool | number | string | array | object => rfl
  simp only [normal, hdoc]

/-! ## Members -/

theorem optional?_some (value : Option Json) :
    optional? some value = some (value.filter fun value => !value.isNull) := by
  cases value with
  | none => rfl
  | some value => cases value <;> rfl

theorem optional?_string (text : Option String) :
    optional? Json.string? (text.map Json.string) = some text := by
  cases text <;> rfl

/-- A count is written as a whole number. -/
theorem ofNat_toNat (n : UInt64) : ∃ fits, Json.ofNat n.toNat = .number (.whole n.toNat fits) := by
  have hlt := n.toNat_lt
  have hfits : FitsWord n.toNat := by
    constructor
    · omega
    · omega
  exact ⟨hfits, by rw [Json.ofNat, Json.ofInt, Number.ofInt?, dif_pos hfits]⟩

theorem optional?_count (n : Option UInt64) :
    optional? count? (n.map fun n => Json.ofNat n.toNat) = some n := by
  cases n with
  | none => rfl
  | some n =>
    obtain ⟨hfits, hnumber⟩ := ofNat_toNat n
    have hcount : count? (.number (.whole n.toNat hfits)) = some n := by
      rw [count?, Json.nat?, if_pos (Int.natCast_nonneg _), Int.toNat_natCast, Option.map_some]
      exact congrArg some UInt64.ofNat_toNat
    rw [Option.map_some, hnumber]
    exact congrArg (Option.map some) hcount

/-- **A row is read off its four members**, whatever else is there and in whatever order. -/
theorem Row.decode?_congr {value other : Json} {fields members : List (String × Json)}
    (hvalue : fieldsOf? rowFields value = some fields)
    (hother : fieldsOf? rowFields other = some members)
    (hsame : ∀ name ∈ rowFields, Json.find? fields name = Json.find? members name) :
    decode? value = decode? other := by
  have hid := hsame "id" (by decide)
  have hkey := hsame "key" (by decide)
  have hval := hsame "value" (by decide)
  have hdoc := hsame "doc" (by decide)
  simp only [decode?, hvalue, hother, hid, hkey, hval, hdoc, Option.bind_eq_bind, Option.bind_some]

/-- The array form of a row stands for any object with the same four members. -/
theorem Row.decode?_array {members : List (String × Json)} {id key value doc : Json}
    (hid : Json.find? members "id" = some id) (hkey : Json.find? members "key" = some key)
    (hvalue : Json.find? members "value" = some value)
    (hdoc : Json.find? members "doc" = some doc) :
    decode? (.array [id, key, value, doc]) = decode? (.object members) := by
  have harray : fieldsOf? rowFields (.array [id, key, value, doc]) =
      some [("id", id), ("key", key), ("value", value), ("doc", doc)] := rfl
  refine decode?_congr harray rfl ?_
  intro name hname
  simp only [rowFields, List.mem_cons, List.not_mem_nil, or_false] at hname
  rcases hname with rfl | rfl | rfl | rfl
  · exact hid.symm
  · exact hkey.symm
  · exact hvalue.symm
  · exact hdoc.symm

/-! ## Rows -/

/-- A row is written with its four members, an id or a document only if it has one. -/
theorem Row.encode_members (row : Row) :
    ∃ members, row.encode = .object members ∧
      Json.find? members "id" = row.id.map Json.string ∧
      Json.find? members "key" = some row.key ∧ Json.find? members "value" = some row.value ∧
      Json.find? members "doc" = row.doc := by
  obtain ⟨id, key, value, doc⟩ := row
  refine ⟨_, rfl, ?_⟩
  cases id with
  | none => cases doc <;> exact ⟨rfl, rfl, rfl, rfl⟩
  | some id => cases doc <;> exact ⟨rfl, rfl, rfl, rfl⟩

/-- What is written comes back without null documents. -/
theorem Row.decode?_encode (row : Row) : decode? row.encode = some row.normal := by
  obtain ⟨members, hencode, hid, hkey, hvalue, hdoc⟩ := row.encode_members
  have hfields : fieldsOf? rowFields (.object members) = some members := rfl
  simp only [hencode, decode?, hfields, hid, hkey, hvalue, hdoc, optional?_string, optional?_some,
    Option.bind_eq_bind, Option.bind_some, Option.getD_some, normal]

/-- What was read has no null document. -/
theorem Row.normal_of_decode? {value : Json} {row : Row} (h : decode? value = some row) :
    row.normal = row := by
  apply normal_eq_self
  intro hnull
  rw [decode?] at h
  simp only [Option.bind_eq_bind, Option.bind_eq_some_iff, optional?_some, Option.some.injEq] at h
  obtain ⟨fields, -, id, -, doc, hdoc, rfl⟩ := h
  obtain rfl : doc = some .null := hnull
  rw [Option.filter_eq_some_iff] at hdoc
  exact absurd hdoc.2 (by decide)

/-- Rows come back one by one. -/
theorem mapM_decode?_encode (rows : List Row) :
    (rows.map Row.encode).mapM Row.decode? = some (rows.map Row.normal) := by
  induction rows with
  | nil => rfl
  | cons row rows ih =>
    rw [List.map_cons, List.mapM_cons, Row.decode?_encode, ih]
    rfl

theorem map_normal_of_mapM_decode? {values : List Json} {rows : List Row}
    (h : values.mapM Row.decode? = some rows) : rows.map Row.normal = rows := by
  induction values generalizing rows with
  | nil =>
    obtain rfl := Option.some.inj h
    rfl
  | cons value values ih =>
    rw [List.mapM_cons] at h
    simp only [Option.bind_eq_bind, Option.bind_eq_some_iff] at h
    obtain ⟨row, hrow, rest, hrest, hrows⟩ := h
    obtain rfl := Option.some.inj hrows
    rw [List.map_cons, Row.normal_of_decode? hrow, ih hrest]

/-! ## Responses -/

/-- A response is written with its rows, and with a count only if it has one. -/
theorem Response.encode_members (response : Response) :
    ∃ members, response.encode = .object members ∧
      Json.find? members "total_rows" = response.totalRows.map (fun n => Json.ofNat n.toNat) ∧
      Json.find? members "offset" = response.offset.map (fun n => Json.ofNat n.toNat) ∧
      Json.find? members "rows" = some (.array (response.rows.map Row.encode)) := by
  obtain ⟨totalRows, offset, rows⟩ := response
  refine ⟨_, rfl, ?_⟩
  cases totalRows with
  | none => cases offset <;> exact ⟨rfl, rfl, rfl⟩
  | some totalRows => cases offset <;> exact ⟨rfl, rfl, rfl⟩

/-- What is written comes back without null documents. -/
theorem Response.decode?_encode (response : Response) :
    decode? response.encode = some response.normal := by
  obtain ⟨members, hencode, htotalRows, hoffset, hrows⟩ := response.encode_members
  have hfields : fieldsOf? responseFields (.object members) = some members := rfl
  simp only [hencode, decode?, hfields, htotalRows, hoffset, hrows, optional?_count,
    mapM_decode?_encode, Option.bind_eq_bind, Option.bind_some, normal]

/-- What was read has no null documents. -/
theorem Response.normal_of_decode? {value : Json} {response : Response}
    (h : decode? value = some response) : response.normal = response := by
  rw [decode?] at h
  simp only [Option.bind_eq_bind, Option.bind_eq_some_iff] at h
  obtain ⟨fields, -, totalRows, -, offset, -, hrows⟩ := h
  split at hrows
  · obtain rfl := Option.some.inj hrows
    rfl
  · obtain ⟨rows, hitems, hresponse⟩ := Option.bind_eq_some_iff.1 hrows
    obtain rfl := Option.some.inj hresponse
    rw [normal, map_normal_of_mapM_decode? hitems]
  · cases hrows

/-! ## What rows are used for -/

/-- Rows are looked up alike with and without null documents. -/
theorem identifiers_map_normal (rows : List Row) :
    identifiers (rows.map Row.normal) = identifiers rows := by
  rw [identifiers, List.filterMap_map]
  rfl

end View

namespace Store

open View (Row)

/-- A row brings in the same with and without a null document. -/
theorem entry_normal (batch : String) (index : Nat) (row : Row) :
    entry batch index row.normal = entry batch index row := by
  obtain ⟨id, key, value, doc⟩ := row
  cases id with
  | none => rfl
  | some id =>
    cases doc with
    | none => rfl
    | some doc => cases doc <;> rfl

theorem updateFrom_map_normal (batch : String) (index : Nat) (store : Store) (rows : List Row) :
    updateFrom batch index store (rows.map Row.normal) = updateFrom batch index store rows := by
  induction rows generalizing index store with
  | nil => rfl
  | cons row rows ih =>
    rw [List.map_cons, updateFrom, updateFrom, entry_normal]
    cases entry batch index row with
    | ok new => exact ih (index + 1) _
    | error fault => rfl

/-- Batches make the same store, or are refused with the same fault, with and without null documents. -/
theorem merge_map_normal (primary secondary : List Row) :
    merge (primary.map Row.normal) (secondary.map Row.normal) = merge primary secondary := by
  simp only [merge, updateBulk, updateFrom_map_normal]

end Store

namespace View

/-- **Nothing is lost but nulls that nobody looks at.**

* Every response that is written can be read, and comes back as it was, but with null documents absent;
  and so does every row.
* So what was read comes back exactly as it was.
* The array form of a row stands for the same row as an object with the same four members, or for none
  like that.
* Rows that come back are looked up by the same keys as the rows that were written, and batches of them
  make the same store, or are refused with the same fault. -/
theorem decode_encode_up_to_null :
    (∀ response : Response, Response.decode? response.encode = some response.normal) ∧
    (∀ row : Row, Row.decode? row.encode = some row.normal) ∧
    (∀ value response, Response.decode? value = some response →
      Response.decode? response.encode = some response) ∧
    (∀ value row, Row.decode? value = some row → Row.decode? row.encode = some row) ∧
    (∀ members id key value doc, Json.find? members "id" = some id →
      Json.find? members "key" = some key → Json.find? members "value" = some value →
      Json.find? members "doc" = some doc →
      Row.decode? (.array [id, key, value, doc]) = Row.decode? (.object members)) ∧
    (∀ response decoded, Response.decode? (Response.encode response) = some decoded →
      identifiers decoded.rows = identifiers response.rows) ∧
    (∀ primary secondary first second,
      Response.decode? (Response.encode primary) = some first →
      Response.decode? (Response.encode secondary) = some second →
      Store.merge first.rows second.rows = Store.merge primary.rows secondary.rows) := by
  refine ⟨Response.decode?_encode, Row.decode?_encode, ?_, ?_, ?_, ?_, ?_⟩
  · intro value response h
    rw [Response.decode?_encode, Response.normal_of_decode? h]
  · intro value row h
    rw [Row.decode?_encode, Row.normal_of_decode? h]
  · intro members id key value doc hid hkey hvalue hdoc
    exact Row.decode?_array hid hkey hvalue hdoc
  · intro response decoded h
    rw [Response.decode?_encode] at h
    obtain rfl := Option.some.inj h
    exact identifiers_map_normal response.rows
  · intro primary secondary first second hfirst hsecond
    rw [Response.decode?_encode] at hfirst hsecond
    obtain rfl := Option.some.inj hfirst
    obtain rfl := Option.some.inj hsecond
    exact Store.merge_map_normal primary.rows secondary.rows

/-- A deleted document does not come back, and its row is merged all the same. -/
theorem decode_encode_up_to_null_of_deleted :
    ∃ decoded, Response.decode?
        (Response.encode { totalRows := some 1, rows := [.document "a" .null] }) = some decoded ∧
      decoded.rows = [{ id := some "a" }] ∧
      Store.merge decoded.rows [] = Store.merge [.document "a" .null] [] := by
  obtain ⟨hresponse, -, -, -, -, -, hmerge⟩ := decode_encode_up_to_null
  have hdecoded := hresponse { totalRows := some 1, rows := [.document "a" .null] }
  exact ⟨_, hdecoded, rfl, hmerge _ {} _ _ hdecoded (hresponse {})⟩

end View

end RequestBoard
