import RequestBoard.Proofs.Record.Reach

/-!
# Long paths are short paths, one after the other

A path can be cut at any of its dots: what is found at its end is what the second half finds below the
value that the first half has found.  The first half asks a record and the second half a value, so the
value in between is made a record of its own, with one field of any name.

* `Path.stretches_append` — two paths with a dot between them have the stretches of both.
* `Json.follow?_append` — following can be cut anywhere.
* `Record.filter_resolve` — a result counts as present unless nothing has been found, so that testing it
  once more changes nothing.
* `Record.resolve_composes` — **the result**.
-/

namespace RequestBoard

namespace Path

/-- Two paths with a dot between them. -/
theorem stretches_append (path below : String) :
    stretches (path ++ "." ++ below) = stretches path ++ stretches below := by
  have htext : (path ++ "." ++ below).toList = path.toList ++ '.' :: below.toList := by
    simp [String.toList_append]
  rw [stretches_eq_splitOn, htext, List.splitOn_append_cons_self, List.map_append,
    ← stretches_eq_splitOn, ← stretches_eq_splitOn]

/-- A name without a dot is a single stretch. -/
theorem stretches_of_not_mem {name : String} (h : '.' ∉ name.toList) : stretches name = [name] := by
  rw [stretches_eq_splitOn, List.splitOn_eq_singleton h, List.map_singleton, String.ofList_toList]

end Path

/-- Following can be cut anywhere. -/
theorem Json.follow?_append (value : Json) (segments more : List String) :
    value.follow? (segments ++ more) = (value.follow? segments).bind fun child => child.follow? more := by
  induction segments generalizing value with
  | nil => rfl
  | cons segment rest ih =>
    rw [List.cons_append, follow?, follow?, Option.bind_assoc]
    exact congrArg _ (funext ih)

namespace Record

/-- What has been found at the end of a path counts as present; null stands for nothing. -/
theorem filter_resolve (record : Record) (path : String) :
    (some (record.resolve path .null)).filter Json.isTruthy =
      record.toJson.follow? (Path.stretches path) := by
  rw [resolve_eq_follow?]
  cases hfollow : record.toJson.follow? (Path.stretches path) with
  | none => rfl
  | some value =>
    have htruthy := (follow?_stretches_eq_some_iff.1 hfollow).2
    exact Option.filter_eq_some_iff.2 ⟨rfl, htruthy⟩

/-- A path that goes on below the end of another one. -/
theorem resolve_append (record : Record) (path below : String) (fallback : Json) :
    record.resolve (path ++ "." ++ below) fallback =
      (((some (record.resolve path .null)).filter Json.isTruthy).bind fun value =>
        value.follow? (Path.stretches below)).getD fallback := by
  rw [resolve_eq_follow?, Path.stretches_append, Json.follow?_append, filter_resolve]

/-- A path into a record with one field, which is the field that the path begins with. -/
theorem resolve_single {name : String} (hname : '.' ∉ name.toList) (value : Json) (below : String)
    (fallback : Json) :
    resolve (Json.membersOf [(name, value)]) (name ++ "." ++ below) fallback =
      (((some value).filter Json.isTruthy).bind fun value =>
        value.follow? (Path.stretches below)).getD fallback := by
  have hfield : (Json.membersOf [(name, value)])[name]? = some value := by simp [Json.find?]
  rw [resolve_eq_follow?, Path.stretches_append, Path.stretches_of_not_mem hname,
    List.singleton_append, Json.follow?, child?_toJson, hfield]

/-- A record and the object with the same members have the same below them. -/
theorem follow?_toJson_membersOf (members : List (String × Json)) {segments : List String}
    (h : segments ≠ []) :
    (toJson (Json.membersOf members)).follow? segments = (Json.object members).follow? segments := by
  cases segments with
  | nil => exact absurd rfl h
  | cons segment rest =>
    rw [Json.follow?, Json.follow?, child?_toJson, Json.getElem?_membersOf, Json.child?]

/-- There is nothing below a value that is neither an object nor an array. -/
theorem follow?_of_scalar {value : Json} (hobject : ∀ members, value ≠ .object members)
    (harray : ∀ items, value ≠ .array items) {segments : List String} (h : segments ≠ []) :
    value.follow? segments = none := by
  cases segments with
  | nil => exact absurd rfl h
  | cons segment rest =>
    cases value with
    | object members => exact absurd rfl (hobject members)
    | array items => exact absurd rfl (harray items)
    | null | bool | number | string => rfl

/-- **A path can be cut at any of its dots.**  What a record has at the end of two paths with a dot
between them is what the second path finds below the result of the first one, put under any name without
a dot; the two paths may have dots in them or be empty.  If the first result is an object, the second
path is looked up in it as in a record, and if it is null or a scalar, nothing is found. -/
theorem resolve_composes {name : String} (hname : '.' ∉ name.toList) (record : Record)
    (path below : String) (fallback : Json) :
    record.resolve (path ++ "." ++ below) fallback =
      resolve (Json.membersOf [(name, record.resolve path .null)]) (name ++ "." ++ below) fallback ∧
    (∀ members, record.resolve path .null = .object members →
      record.resolve (path ++ "." ++ below) fallback =
        resolve (Json.membersOf members) below fallback) ∧
    ((∀ members, record.resolve path .null ≠ .object members) →
      (∀ items, record.resolve path .null ≠ .array items) →
      record.resolve (path ++ "." ++ below) fallback = fallback) := by
  have hbelow : Path.stretches below ≠ [] := Path.stretches_ne_nil below
  refine ⟨?_, fun members hobject => ?_, fun hobject harray => ?_⟩
  · rw [resolve_append, resolve_single hname]
  · rw [resolve_append, hobject, resolve_eq_follow?, follow?_toJson_membersOf members hbelow]
    rfl
  · rw [resolve_append]
    cases hfilter : (some (record.resolve path .null)).filter Json.isTruthy with
    | none => rfl
    | some value =>
      obtain rfl : record.resolve path .null = value :=
        Option.some.inj (Option.filter_eq_some_iff.1 hfilter).1
      rw [Option.bind_some, follow?_of_scalar hobject harray hbelow]
      rfl

/-- Cut before an array, below an object and below a truth value. -/
theorem resolve_composes_below_three :
    let record : Record := Json.membersOf
      [("a", .array [.object [("b", .bool true)]]), ("o", .object [("n", .bool true)]),
        ("t", .bool true)]
    '.' ∉ "x".toList ∧
    record.resolve "a.+0.b" .null =
      resolve (Json.membersOf [("x", .array [.object [("b", .bool true)]])]) "x.+0.b" .null ∧
    record.resolve "o.n" .null = resolve (Json.membersOf [("n", .bool true)]) "n" .null ∧
    record.resolve "t.n" .null = .null := by
  intro record
  have hname : '.' ∉ "x".toList := by decide
  refine ⟨hname, (resolve_composes hname record "a" "+0.b" .null).1, ?_, ?_⟩
  · exact (resolve_composes hname record "o" "n" .null).2.1 [("n", .bool true)] rfl
  · exact (resolve_composes hname record "t" "n" .null).2.2
      (fun _ h => Json.noConfusion h) (fun _ h => Json.noConfusion h)

end Record

end RequestBoard
