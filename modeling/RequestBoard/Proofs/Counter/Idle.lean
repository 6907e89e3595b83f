import RequestBoard.Proofs.Counter.Operand

/-!
# Idle operands

What stands at the end of an operand's path does not matter as long as it is not a number other than
zero: it may be a zero, a text, an array, or be missing, and it may be exchanged for any other such
value or taken away, without a trace in any counter.

* `Record.put` — a record with one member of it, however deep, set or taken away.
* `Record.reaches_put_of_reaches`, `Record.reaches_put_of_ne` — **what has been put is found at its path,
  and nothing else has changed** at paths that go elsewhere.
* `Record.Alike` — two records that have the same at a path, or nothing that counts.
* `Counter.operandPaths`, `Counter.eval_congr_of_alike` — a counter is determined by what counts at the
  paths of the operands.
* `Counter.idle_operands_count_as_absent` — **the result**.
-/

namespace RequestBoard

/-! ## Going down by one name -/

theorem Json.reaches_cons_iff {value target : Json} {segment : String} {rest : List String} :
    Json.Reaches value (segment :: rest) target ↔
      ∃ child, value.child? segment = some child ∧ Json.Reaches child rest target := by
  constructor
  · rintro (_ | ⟨hchild, hrest⟩)
    exact ⟨_, Json.child?_eq_some_iff.2 hchild, hrest⟩
  · rintro ⟨child, hchild, hrest⟩
    exact .down (Json.child?_eq_some_iff.1 hchild) hrest

namespace Record

theorem reaches_toJson_cons_iff {record : Record} {name : String} {rest : List String} {value : Json} :
    Json.Reaches record.toJson (name :: rest) value ↔
      ∃ child, record[name]? = some child ∧ Json.Reaches child rest value := by
  rw [Json.reaches_cons_iff, child?_toJson]

/-- An object and the record with its members have the same below them. -/
theorem reaches_toJson_membersOf_iff {members : List (String × Json)} {name : String}
    {rest : List String} {value : Json} :
    Json.Reaches (toJson (Json.membersOf members)) (name :: rest) value ↔
      Json.Reaches (.object members) (name :: rest) value := by
  rw [reaches_toJson_cons_iff, Json.reaches_cons_iff, Json.getElem?_membersOf, Json.child?]

theorem reaches_iff {record : Record} {path : String} {value : Json} :
    record.Reaches path value ↔
      Json.Reaches record.toJson ((Path.ofString path).first :: (Path.ofString path).rest) value := by
  rw [Reaches, ← Path.segments_ofString, Path.segments]

/-! ## Setting one member -/

/-- Sets the member at the end of a path of names, or takes it away if there is no value to set.  Where
an object is missing on the way nothing changes. -/
def putAt (value? : Option Json) : String → List String → Record → Record
  | name, [], record => record.alter name fun _ => value?
  | name, next :: rest, record => record.alter name fun
    | some (.object members) =>
      some (Json.ofMap (putAt value? next rest (Json.membersOf members)))
    | other => other

/-- `putAt` with the path as a text. -/
def put (record : Record) (path : String) (value? : Option Json) : Record :=
  putAt value? (Path.ofString path).first (Path.ofString path).rest record

theorem getElem?_putAt_of_ne (value? : Option Json) {name other : String} (h : name ≠ other)
    (rest : List String) (record : Record) : (putAt value? name rest record)[other]? = record[other]? := by
  cases rest with
  | nil => simp [putAt, Std.ExtTreeMap.getElem?_alter, h]
  | cons next rest => simp [putAt, Std.ExtTreeMap.getElem?_alter, h]

theorem getElem?_putAt_nil (value? : Option Json) (name : String) (record : Record) :
    (putAt value? name [] record)[name]? = value? := by
  simp [putAt]

theorem getElem?_putAt_cons_of_object (value? : Option Json) {name : String} (next : String)
    (rest : List String) {record : Record} {members : List (String × Json)}
    (h : record[name]? = some (.object members)) :
    (putAt value? name (next :: rest) record)[name]? =
      some (toJson (putAt value? next rest (Json.membersOf members))) := by
  simp [putAt, h, toJson]

theorem getElem?_putAt_cons_of_other (value? : Option Json) {name : String} (next : String)
    (rest : List String) {record : Record} (h : ∀ members, record[name]? ≠ some (.object members)) :
    (putAt value? name (next :: rest) record)[name]? = record[name]? := by
  rw [putAt, Std.ExtTreeMap.getElem?_alter, if_pos Std.ReflCmp.compare_self]
  split
  · rename_i members hmembers
    exact absurd hmembers (h members)
  · rfl

/-- **Nothing else changes**: a path that goes elsewhere, so that neither goes on where the other ends,
leads to what it has led to before. -/
theorem reaches_putAt_of_not_prefix (value? : Option Json) {name other : String}
    {rest others : List String} (h : ¬ name :: rest <+: other :: others)
    (h' : ¬ other :: others <+: name :: rest) (record : Record) (value : Json) :
    Json.Reaches (putAt value? name rest record).toJson (other :: others) value ↔
      Json.Reaches record.toJson (other :: others) value := by
  rw [reaches_toJson_cons_iff, reaches_toJson_cons_iff]
  induction rest generalizing name other others record with
  | nil =>
    have hne : name ≠ other := by
      rintro rfl
      exact h (by simp)
    rw [getElem?_putAt_of_ne value? hne]
  | cons next rest ih =>
    by_cases hne : name = other
    · subst hne
      cases others with
      | nil => exact absurd (by simp) h'
      | cons following others =>
        rw [List.cons_prefix_cons] at h h'
        by_cases hobject : ∃ members, record[name]? = some (.object members)
        · obtain ⟨members, hmembers⟩ := hobject
          have hbelow := ih (fun hp => h ⟨rfl, hp⟩) (fun hp => h' ⟨rfl, hp⟩) (Json.membersOf members)
          rw [← reaches_toJson_cons_iff, ← reaches_toJson_cons_iff,
            reaches_toJson_membersOf_iff] at hbelow
          rw [getElem?_putAt_cons_of_object value? next rest hmembers, hmembers]
          simpa using hbelow
        · rw [getElem?_putAt_cons_of_other value? next rest (not_exists.1 hobject)]
    · rw [getElem?_putAt_of_ne value? hne]

/-- What a path leads to after a value has been put there is this value, or it was there before. -/
theorem eq_or_reaches_of_reaches_putAt {value? : Option Json} {name : String} {rest : List String}
    {record : Record} {value : Json}
    (h : Json.Reaches (putAt value? name rest record).toJson (name :: rest) value) :
    value? = some value ∨ Json.Reaches record.toJson (name :: rest) value := by
  induction rest generalizing name record with
  | nil =>
    obtain ⟨child, hchild, ⟨⟩⟩ := reaches_toJson_cons_iff.1 h
    rw [getElem?_putAt_nil] at hchild
    exact Or.inl hchild
  | cons next rest ih =>
    obtain ⟨child, hchild, hrest⟩ := reaches_toJson_cons_iff.1 h
    by_cases hobject : ∃ members, record[name]? = some (.object members)
    · obtain ⟨members, hmembers⟩ := hobject
      rw [getElem?_putAt_cons_of_object value? next rest hmembers, Option.some.injEq] at hchild
      subst hchild
      rcases ih hrest with heq | hreaches
      · exact Or.inl heq
      · exact Or.inr (reaches_toJson_cons_iff.2
          ⟨_, hmembers, reaches_toJson_membersOf_iff.1 hreaches⟩)
    · rw [getElem?_putAt_cons_of_other value? next rest (not_exists.1 hobject)] at hchild
      exact Or.inr (reaches_toJson_cons_iff.2 ⟨child, hchild, hrest⟩)

/-- **What has been put is found**: where a path of names has led to a value, it leads to the value that
has been put there, and to nothing if the member has been taken away. -/
theorem reaches_putAt_of_reaches (value? : Option Json) {name : String} {rest : List String}
    (hnames : ∀ segment ∈ rest, Path.index? segment = none) {record : Record} {old : Json}
    (h : Json.Reaches record.toJson (name :: rest) old) (value : Json) :
    Json.Reaches (putAt value? name rest record).toJson (name :: rest) value ↔ value? = some value := by
  induction rest generalizing name record with
  | nil =>
    rw [reaches_toJson_cons_iff, getElem?_putAt_nil]
    constructor
    · rintro ⟨child, hchild, ⟨⟩⟩
      exact hchild
    · exact fun hvalue => ⟨value, hvalue, .here⟩
  | cons next rest ih =>
    obtain ⟨child, hchild, hrest⟩ := reaches_toJson_cons_iff.1 h
    obtain ⟨below, hbelow, -⟩ := Json.reaches_cons_iff.1 hrest
    cases Json.child?_eq_some_iff.1 hbelow with
    | item hspells _ =>
      -- a name is no index, so the value on the way is not an array
      have hindex := Path.index?_eq_some_iff.2 hspells
      rw [hnames next List.mem_cons_self] at hindex
      exact absurd hindex (by simp)
    | member _ =>
      have hrest' := ih (fun segment hmem => hnames segment (List.mem_cons_of_mem next hmem))
        (reaches_toJson_membersOf_iff.2 hrest)
      rw [reaches_toJson_cons_iff, getElem?_putAt_cons_of_object value? next rest hchild]
      simpa using hrest'

/-! ## Records that count the same -/

/-- Two records lead to the same at a path, or neither leads to a number other than zero. -/
def Alike (record other : Record) (path : String) : Prop :=
  (∀ value, record.Reaches path value ↔ other.Reaches path value) ∨
    (record.Idle path ∧ other.Idle path)

theorem Alike.refl (record : Record) (path : String) : record.Alike record path :=
  Or.inl fun _ => Iff.rfl

theorem Alike.idle {record other : Record} {path : String} (h : record.Alike other path)
    (hidle : record.Idle path) : other.Idle path := by
  rcases h with hsame | ⟨-, hother⟩
  · exact fun value hvalue => hidle value ((hsame value).2 hvalue)
  · exact hother

theorem Alike.trans {record other third : Record} {path : String} (h : record.Alike other path)
    (h' : other.Alike third path) : record.Alike third path := by
  rcases h with hsame | ⟨hidle, hother⟩
  · rcases h' with hsame' | ⟨hother, hthird⟩
    · exact Or.inl fun value => (hsame value).trans (hsame' value)
    · exact Or.inr ⟨fun value hvalue => hother value ((hsame value).1 hvalue), hthird⟩
  · exact Or.inr ⟨hidle, h'.idle hother⟩

theorem resolveNumber_congr_of_alike {record other : Record} {path : String}
    (h : record.Alike other path) (fallback : Float) :
    record.resolveNumber path fallback = other.resolveNumber path fallback := by
  rcases h with hsame | ⟨hidle, hother⟩
  · rcases record.idle_or_reaches path with hidle | ⟨n, hn, hnonzero⟩
    · have hother : other.Idle path := Alike.idle (Or.inl hsame) hidle
      rw [resolveNumber_of_idle hidle, resolveNumber_of_idle hother]
    · rw [resolveNumber_of_reaches hn hnonzero, resolveNumber_of_reaches ((hsame _).1 hn) hnonzero]
  · rw [resolveNumber_of_idle hidle, resolveNumber_of_idle hother]

end Record

/-! ## The operands of the counters -/

namespace Counter

/-- The paths of all operands. -/
def operandPaths : List String :=
  all.flatMap fun counter => counter.formula.operands.map Operand.path

theorem path_mem_operandPaths {counter : Counter} {operand : Operand}
    (h : operand ∈ counter.formula.operands) : operand.path ∈ operandPaths :=
  List.mem_flatMap.2 ⟨counter, counter.mem_all, List.mem_map.2 ⟨operand, h, rfl⟩⟩

/-- **A counter is determined by what counts at the paths of the operands.** -/
theorem eval_congr_of_alike {record other : Record}
    (h : ∀ path ∈ operandPaths, record.Alike other path) (counter : Counter) :
    counter.eval record = counter.eval other :=
  Formula.eval_congr_of_operands fun operand hoperand =>
    Record.resolveNumber_congr_of_alike (h operand.path (path_mem_operandPaths hoperand)) _

/-- No operand lies below another one. -/
theorem not_prefix_of_mem_operandPaths :
    ∀ path ∈ operandPaths, ∀ other ∈ operandPaths, path ≠ other →
      ¬ (Path.ofString path).segments <+: (Path.ofString other).segments := by
  decide +kernel

/-- The paths of the operands go down by names only. -/
theorem index?_of_mem_operandPaths :
    ∀ path ∈ operandPaths, ∀ segment ∈ (Path.ofString path).rest, Path.index? segment = none := by
  decide +kernel

end Counter

/-! ## Edits -/

/-- A change of one member: what to put at a path, or nothing to take away what is there. -/
structure Record.Edit where
  path : String
  value? : Option Json

namespace Record

/-- The edit is at an operand that is idle in the record, and puts nothing there that would count. -/
def Edit.IsIdle (edit : Edit) (record : Record) : Prop :=
  edit.path ∈ Counter.operandPaths ∧ record.Idle edit.path ∧
    ∀ value ∈ edit.value?, ¬ value.IsNonzeroNumber

instance (edit : Edit) (record : Record) : Decidable (edit.IsIdle record) :=
  inferInstanceAs (Decidable (_ ∧ _ ∧ ∀ value ∈ edit.value?, ¬ value.IsNonzeroNumber))

/-- The record after some edits, one after the other. -/
def edited (record : Record) (edits : List Edit) : Record :=
  edits.foldl (fun record edit => record.put edit.path edit.value?) record

theorem reaches_put_of_ne (value? : Option Json) {path other : String}
    (hpath : path ∈ Counter.operandPaths) (hother : other ∈ Counter.operandPaths) (hne : path ≠ other)
    (record : Record) (value : Json) :
    (record.put path value?).Reaches other value ↔ record.Reaches other value := by
  rw [reaches_iff, reaches_iff]
  exact reaches_putAt_of_not_prefix value?
    (Counter.not_prefix_of_mem_operandPaths path hpath other hother hne)
    (Counter.not_prefix_of_mem_operandPaths other hother path hpath hne.symm) record value

theorem reaches_put_of_reaches (value? : Option Json) {path : String}
    (hpath : path ∈ Counter.operandPaths) {record : Record} {old : Json} (h : record.Reaches path old)
    (value : Json) : (record.put path value?).Reaches path value ↔ value? = some value := by
  rw [reaches_iff] at h ⊢
  exact reaches_putAt_of_reaches value? (Counter.index?_of_mem_operandPaths path hpath) h value

/-- An idle operand is idle after an idle edit. -/
theorem idle_put {edit : Edit} {record : Record} (h : edit.IsIdle record) :
    (record.put edit.path edit.value?).Idle edit.path := by
  obtain ⟨-, hidle, hvalue⟩ := h
  intro value hreaches
  rcases eq_or_reaches_of_reaches_putAt (reaches_iff.1 hreaches) with heq | hbefore
  · exact hvalue value heq
  · exact hidle value (reaches_iff.2 hbefore)

/-- **One idle edit leaves everything that counts.** -/
theorem alike_put {edit : Edit} {record : Record} (h : edit.IsIdle record) :
    ∀ path ∈ Counter.operandPaths, record.Alike (record.put edit.path edit.value?) path := by
  intro path hpath
  by_cases hne : edit.path = path
  · subst hne
    exact Or.inr ⟨h.2.1, idle_put h⟩
  · exact Or.inl fun value => (reaches_put_of_ne edit.value? h.1 hpath hne record value).symm

/-- Any number of idle edits do. -/
theorem alike_edited {record : Record} {edits : List Edit} (h : ∀ edit ∈ edits, edit.IsIdle record) :
    ∀ path ∈ Counter.operandPaths, record.Alike (record.edited edits) path := by
  induction edits generalizing record with
  | nil => exact fun path _ => Alike.refl record path
  | cons edit edits ih =>
    have hfirst := alike_put (h edit List.mem_cons_self)
    have hrest : ∀ later ∈ edits, later.IsIdle (record.put edit.path edit.value?) := by
      intro later hlater
      obtain ⟨hpath, hidle, hvalue⟩ := h later (List.mem_cons_of_mem edit hlater)
      exact ⟨hpath, (hfirst later.path hpath).idle hidle, hvalue⟩
    exact fun path hpath => (hfirst path hpath).trans (ih hrest path hpath)

end Record

namespace Counter

theorem ofRecord_congr_of_alike {record other : Record}
    (h : ∀ path ∈ operandPaths, record.Alike other path) :
    Counters.ofRecord record = Counters.ofRecord other :=
  Counters.ofRecord_congr_of_eval (eval_congr_of_alike h)

/-- **An idle operand counts as an absent one.**  An operand whose path does not lead to a number other
than zero counts as its fallback, whatever else stands there or on the way.  So two records have the
same counters, one by one and all at once, if at each operand they have the same or are both idle.  In
particular the members at any idle operands may be taken away, or exchanged for anything that is not a
number other than zero, and every counter is the same as before. -/
theorem idle_operands_count_as_absent (record : Record) :
    (∀ operand : Operand, record.Idle operand.path → operand.eval record = operand.fallback) ∧
    (∀ other : Record, (∀ path ∈ operandPaths, record.Alike other path) →
      (∀ counter : Counter, counter.eval other = counter.eval record) ∧
        Counters.ofRecord other = Counters.ofRecord record) ∧
    (∀ edits : List Record.Edit, (∀ edit ∈ edits, edit.IsIdle record) →
      (∀ counter : Counter, counter.eval (record.edited edits) = counter.eval record) ∧
        Counters.ofRecord (record.edited edits) = Counters.ofRecord record) ∧
    (∀ path ∈ operandPaths, ∀ old, record.Reaches path old → ∀ value? value,
      (record.put path value?).Reaches path value ↔ value? = some value) := by
  refine ⟨fun operand hidle => Record.resolveNumber_of_idle hidle _, fun other hother => ?_,
    fun edits hedits => ?_, fun path hpath old hold value? value => ?_⟩
  · exact ⟨fun counter => (eval_congr_of_alike hother counter).symm, (ofRecord_congr_of_alike hother).symm⟩
  · have halike := Record.alike_edited hedits
    exact ⟨fun counter => (eval_congr_of_alike halike counter).symm, (ofRecord_congr_of_alike halike).symm⟩
  · exact Record.reaches_put_of_reaches value? hpath hold value

/-- Four idle operands: a zero, a text, one below a number, and one beside an operand that counts. -/
theorem idle_operands_count_as_absent_of_four :
    let four : Number := .whole 4 (by decide)
    let record : Record := Json.membersOf
      [("status", .object [("failure", .object [("create", .number (.whole 0 (by decide))),
        ("submit", .string "n/a"), ("exception", .number four)]), ("queued", .number four)])]
    let edits : List Record.Edit := [⟨"status.failure.create", none⟩,
      ⟨"status.failure.submit", some (.array [])⟩, ⟨"status.queued.first", some (.bool true)⟩,
      ⟨"total_jobs", some (.number (.float (-0.0) (by decide)))⟩]
    (∀ edit ∈ edits, edit.IsIdle record) ∧
      Counters.ofRecord (record.edited edits) = Counters.ofRecord record ∧
      failure.eval (record.edited edits) = failure.eval record ∧
      Operand.eval ⟨"status.failure.submit", 0⟩ record = 0 ∧
      ¬ (record.put "status.failure.submit" none).Reaches "status.failure.submit" (.string "n/a") := by
  intro four record edits
  have hedits : ∀ edit ∈ edits, edit.IsIdle record := by decide
  have hpath : "status.failure.submit" ∈ operandPaths := by decide
  have hold : record.Reaches "status.failure.submit" (.string "n/a") :=
    Record.reaches_of_resolve rfl (by simp)
  obtain ⟨hoperand, hother, hedited, hput⟩ := idle_operands_count_as_absent record
  refine ⟨hedits, (hedited edits hedits).2, (hother _ (Record.alike_edited hedits)).1 failure,
    hoperand ⟨"status.failure.submit", 0⟩ (by decide), fun h => ?_⟩
  exact absurd ((hput _ hpath _ hold none _).1 h) (by simp)

end Counter

end RequestBoard
