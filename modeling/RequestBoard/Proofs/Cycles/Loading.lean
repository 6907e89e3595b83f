import RequestBoard.Cycles
import RequestBoard.Proofs.Fetch.Dialogue
import RequestBoard.Proofs.Table.Fields

/-!
# A table that is loaded has every request in it

The keys of a follow-up question pass over a row that cannot be looked up, and make do with the key of a
row that has no id.  Merging insists on ids.  Together they never lose a request of the registry: a row
that was passed over, or went under another name, keeps the table from being made at all.

* `Fetch.rowsAt`, `Fetch.batchesOf` — the rows that the answers of a run have brought.
* `Fetch.Course.result_eq_ok_iff` — **what a run comes to**: the batches of its answers, if none of them
  is a fault.
* `Fetch.exists_answers` — a run against a list of replies has its answers from there.
* `View.identifiers_of_ids` — rows that all have an id are looked up by exactly these ids.
* `Table.ofBatches_eq_ok_iff`, `exists_ofBatches_iff`, `map_id_ofBatches` — when batches make a table,
  and the ids of its rows.
* `Cycles.load_keeps_every_request` — **the two policies together**, for every source.
-/

namespace RequestBoard

/-! ## The rows of a run -/

namespace Fetch

/-- The rows that an answer has brought. -/
def rowsOf : Reply → List View.Row
  | .ok response => response.rows
  | .error _ => []

/-- The rows that the answer at a position of a run has brought; there are none if the run did not get
that far. -/
def rowsAt (log : List (Ask × Reply)) (i : Nat) : List View.Row :=
  (log[i]?).elim [] fun entry => rowsOf entry.2

/-- The batches of a run: the first answer brings the registry rows, and the third one the agent rows. -/
def batchesOf (log : List (Ask × Reply)) : Batches := ⟨rowsAt log 0, rowsAt log 2⟩

/-- The answer is no fault. -/
def IsAnswer (reply : Reply) : Prop := ∃ response, reply = .ok response

variable {views : ViewNames} {log : List (Ask × Reply)} {result : Except Fault Batches}

/-- **What a run comes to.**  It succeeds exactly if no answer is a fault, and then with the batches that
the answers have brought. -/
theorem Course.result_eq_ok_iff (h : Course views log result) (batches : Batches) :
    result = .ok batches ↔ (∀ entry ∈ log, IsAnswer entry.2) ∧ batches = batchesOf log := by
  cases h with
  | registryFails fault => simp [IsAnswer]
  | nothingRegistered first hfirst => simp [IsAnswer, batchesOf, rowsAt, rowsOf, eq_comm]
  | latestFails first keys hfirst hkeys fault => simp [IsAnswer]
  | nothingEntered first second keys hfirst hkeys hsecond =>
    simp [IsAnswer, batchesOf, rowsAt, rowsOf, eq_comm]
  | agentsFail first second keys entryKeys hfirst hkeys hsecond hentryKeys fault => simp [IsAnswer]
  | complete first second third keys entryKeys hfirst hkeys hsecond hentryKeys =>
    simp [IsAnswer, batchesOf, rowsAt, rowsOf, eq_comm]

/-- A run against a list of replies has its answers from the list, one after the other, and leaves the
others; only what it is told when there are none left is not from it. -/
theorem exists_answers (views : ViewNames) (stage : Stage) (replies : List Reply) :
    ∃ log, Dialogue views stage log (stage.run views ofReplies replies).1 ∧
      ((∀ entry ∈ log, IsAnswer entry.2) →
        replies = log.map (·.2) ++ (stage.run views ofReplies replies).2) := by
  have htaken : ∀ {ask : Ask} {state later : List Reply} {answer : Reply},
      ofReplies ask state = (answer, later) → IsAnswer answer → state = answer :: later := by
    rintro ask (_ | ⟨reply, rest⟩) later answer hsource ⟨response, rfl⟩
    · exact absurd (congrArg Prod.fst hsource) nofun
    · obtain ⟨rfl, rfl⟩ := Prod.mk.inj hsource
      rfl
  induction stage, replies using Stage.run.induct views ofReplies with
  | case1 stage state answer later hsource next hreply ih =>
    obtain ⟨log, hlog, htold⟩ := ih
    rw [Stage.run_of_ask hsource hreply]
    refine ⟨_, .ask hreply hlog, fun hanswers => ?_⟩
    obtain ⟨hanswer, hrest⟩ := List.forall_mem_cons.1 hanswers
    rw [htaken hsource hanswer, List.map_cons, List.cons_append, ← htold hrest]
  | case2 stage state answer later hsource result hreply =>
    rw [Stage.run_of_done hsource hreply]
    refine ⟨_, .done hreply, fun hanswers => ?_⟩
    rw [htaken hsource (hanswers _ List.mem_cons_self)]
    rfl

/-- A run that succeeds has read the registry, and has asked for the latest entries of its rows exactly if
these can be looked up. -/
theorem Course.asks_of_ok {batches : Batches} (h : Course views log (.ok batches)) :
    (∃ first, log[0]? = some (.registry views, .ok first) ∧ batches.registry = first.rows) ∧
    ((log[1]?).map fun entry => entry.1) =
      if View.identifiers batches.registry = [] then none
      else some (.latest views (View.identifiers batches.registry)) := by
  cases h with
  | nothingRegistered first hfirst =>
    refine ⟨⟨first, rfl, rfl⟩, ?_⟩
    rw [View.identifiedBy_iff.1 hfirst]
    rfl
  | nothingEntered first second keys hfirst hkeys hsecond =>
    refine ⟨⟨first, rfl, rfl⟩, ?_⟩
    rw [View.identifiedBy_iff.1 hfirst, if_neg hkeys]
    rfl
  | complete first second third keys entryKeys hfirst hkeys hsecond hentryKeys =>
    refine ⟨⟨first, rfl, rfl⟩, ?_⟩
    rw [View.identifiedBy_iff.1 hfirst, if_neg hkeys]
    rfl

end Fetch

/-! ## Rows with ids -/

namespace View

/-- Rows that all have an id have a list of ids. -/
theorem map_id_eq_map_some {rows : List Row} (h : ∀ row ∈ rows, row.id ≠ none) :
    rows.map (·.id) = (rows.filterMap (·.id)).map some := by
  induction rows with
  | nil => rfl
  | cons row rows ih =>
    obtain ⟨id, hid⟩ := Option.ne_none_iff_exists'.1 (h row (by simp))
    have hrest := ih fun later hlater => h later (List.mem_cons_of_mem _ hlater)
    simp [hid, hrest]

/-- Rows that all have an id are looked up by exactly these ids, whatever their keys are. -/
theorem identifiers_of_ids {rows : List Row} (h : ∀ row ∈ rows, row.id ≠ none) :
    identifiers rows = (rows.filterMap (·.id)).map Json.string := by
  induction rows with
  | nil => rfl
  | cons row rows ih =>
    obtain ⟨id, hid⟩ := Option.ne_none_iff_exists'.1 (h row (by simp))
    have hrest := ih fun later hlater => h later (List.mem_cons_of_mem _ hlater)
    rw [identifiers, List.filterMap_cons, Row.identifier?_of_id hid, List.filterMap_cons, hid,
      List.map_cons, ← hrest]
    rfl

/-- The distinct ids of rows are followed by those of later rows that are new. -/
theorem distinctIds_append (rows later : List Row) :
    distinctIds (rows ++ later) = (rows.filterMap (·.id)).eraseDups ++
      ((later.filterMap (·.id)).filter (· ∉ rows.filterMap (·.id))).eraseDups := by
  rw [distinctIds, List.filterMap_append, List.eraseDups_append]
  congr 2
  exact List.filter_congr fun id _ => by simp only [List.elem_eq_mem, decide_not]

end View

/-! ## The table of two batches -/

namespace Table

variable {primary secondary : List View.Row} {table : Table}

/-- The table of two batches is that of the store that they merge to. -/
theorem ofBatches_eq_ok_iff :
    ofBatches primary secondary = .ok table ↔
      ∃ store, Store.merge primary secondary = .ok store ∧ ofStore store = table := by
  rw [ofBatches]
  cases Store.merge primary secondary <;> simp [Except.map]

/-- Two batches make no table for the reason that they do not merge. -/
theorem ofBatches_eq_error_iff {fault : Fault} :
    ofBatches primary secondary = .error fault ↔ Store.merge primary secondary = .error fault := by
  rw [ofBatches]
  cases Store.merge primary secondary <;> simp [Except.map]

/-- Two batches make a table exactly if none of their rows is bad. -/
theorem exists_ofBatches_iff :
    (∃ table, ofBatches primary secondary = .ok table) ↔
      ∀ row ∈ primary ++ secondary, ¬ row.IsBad := by
  constructor
  · rintro ⟨table, h⟩
    obtain ⟨store, hmerge, -⟩ := ofBatches_eq_ok_iff.1 h
    exact (Store.merge_eq_ok_iff.1 hmerge).1
  · intro hgood
    exact ⟨_, ofBatches_eq_ok_iff.2 ⟨_, Store.merge_of_good hgood, rfl⟩⟩

/-- The rows of the table have the distinct ids of the batches, in the order in which they first
occur. -/
theorem map_id_ofBatches (h : ofBatches primary secondary = .ok table) :
    table.rows.map (·.id) = View.distinctIds (primary ++ secondary) := by
  obtain ⟨store, hmerge, rfl⟩ := ofBatches_eq_ok_iff.1 h
  have hrows := rowsOf_of_holds (Store.holds_of_merge hmerge)
  have hids : (ofStore store).rows.map (·.id) = (rowsOf store).map (·.id) := rfl
  rw [hids, hrows, List.map_map]
  exact List.map_id _

end Table

/-! ## Loading -/

namespace Cycles

variable {σ : Type} (views : ViewNames) (source : Source σ) (state : σ)

/-- Taking notes changes nothing about loading a table, and the notes go one of the ways of a run. -/
theorem exists_course_of_load :
    ∃ log batches, Fetch.Course views log batches ∧
      load views source state = (tableOf batches, (load views source state).2) ∧
      load views source.noting (state, []) =
        (tableOf batches, (load views source state).2, log) := by
  obtain ⟨log, hlog, hnotes⟩ := Fetch.exists_dialogue_noting views source .registry state
  refine ⟨log, _, hlog.course, rfl, ?_⟩
  rw [load, Fetch.run, hnotes]
  rfl

/-- **A table comes from answers alone.**  Loading yields a table exactly if no answer is a fault and none
of the rows that they have brought is bad. -/
theorem exists_table_iff {views : ViewNames} {log : List (Ask × Reply)}
    {batches : Except Fault Batches} (h : Fetch.Course views log batches) :
    (∃ table, tableOf batches = .ok table) ↔
      (∀ entry ∈ log, Fetch.IsAnswer entry.2) ∧
        ∀ row ∈ Fetch.rowsAt log 0 ++ Fetch.rowsAt log 2, ¬ row.IsBad := by
  cases batches with
  | error fault =>
    refine iff_of_false ?_ ?_
    · rintro ⟨table, htable⟩
      cases htable
    · rintro ⟨hanswers, -⟩
      have := (h.result_eq_ok_iff (Fetch.batchesOf log)).2 ⟨hanswers, rfl⟩
      cases this
  | ok batches =>
    obtain ⟨hanswers, rfl⟩ := (h.result_eq_ok_iff batches).1 rfl
    rw [and_iff_right hanswers]
    exact Table.exists_ofBatches_iff

/-- **No request of the registry is lost.**  Whatever the source answers, a table is loaded only if every
registry row has an id.  Then no registry row has been passed over: the second question, asked unless
there are no registry rows, is for exactly their ids as texts, in row order and with repetitions.  The
table has a row for each of them, in the order in which they first occur, and after these for the other
ids of the agent rows, in the order in which those first occur.  Conversely, if all questions are answered
and some registry or agent row has no id, whether it could be looked up by its key or not, no table is
made. -/
theorem load_keeps_every_request :
    ∃ log result later,
      load views source state = (result, later) ∧
      load views source.noting (state, []) = (result, later, log) ∧
      (∀ table, result = .ok table → ∃ first ids,
        log[0]? = some (.registry views, .ok first) ∧
        first.rows.map (·.id) = ids.map some ∧
        View.identifiers first.rows = ids.map Json.string ∧
        ((log[1]?).map fun entry => entry.1) =
          (if ids = [] then none else some (.latest views (ids.map Json.string))) ∧
        (∀ row ∈ Fetch.rowsAt log 2, row.id ≠ none) ∧
        table.rows.map (·.id) = ids.eraseDups ++
          (((Fetch.rowsAt log 2).filterMap (·.id)).filter (· ∉ ids)).eraseDups) ∧
      ((∀ entry ∈ log, Fetch.IsAnswer entry.2) →
        (∃ row ∈ Fetch.rowsAt log 0 ++ Fetch.rowsAt log 2, row.id = none) →
        ∃ fault, result = .error fault) := by
  obtain ⟨log, batches, hcourse, hload, hnotes⟩ := exists_course_of_load views source state
  refine ⟨log, _, _, hload, hnotes, ?_, ?_⟩
  · intro table htable
    cases batches with
    | error fault => cases htable
    | ok batches =>
      obtain ⟨hanswers, rfl⟩ := (hcourse.result_eq_ok_iff batches).1 rfl
      obtain ⟨⟨first, hfirst, hrows⟩, hsecond⟩ := hcourse.asks_of_ok
      have hgood := ((exists_table_iff hcourse).1 ⟨table, htable⟩).2
      have hregistry : ∀ row ∈ first.rows, row.id ≠ none := by
        intro row hrow hnone
        rw [← hrows] at hrow
        exact hgood row (List.mem_append_left _ hrow) (Or.inl hnone)
      have hagents : ∀ row ∈ Fetch.rowsAt log 2, row.id ≠ none := by
        intro row hrow hnone
        exact hgood row (List.mem_append_right _ hrow) (Or.inl hnone)
      have hkeys := View.identifiers_of_ids hregistry
      refine ⟨first, first.rows.filterMap (·.id), hfirst, View.map_id_eq_map_some hregistry, hkeys,
        ?_, hagents, ?_⟩
      · rw [hsecond, hrows, hkeys]
        simp only [List.map_eq_nil_iff]
      · rw [Table.map_id_ofBatches htable, hrows, View.distinctIds_append]
        rfl
  · intro hanswers hmissing
    obtain ⟨row, hrow, hnone⟩ := hmissing
    cases hresult : tableOf batches with
    | error fault => exact ⟨fault, rfl⟩
    | ok table =>
      have hgood := ((exists_table_iff hcourse).1 ⟨table, hresult⟩).2
      exact absurd (Or.inl hnone) (hgood row hrow)

/-- A request comes twice in the registry, another one only among the agent rows; and a registry row that
has a key but no id keeps the table from being made. -/
theorem load_keeps_every_request_of_four :
    (∃ table, (load {} Fetch.ofReplies [.ok { rows := [.document "b" .null, .document "a" .null,
          .document "b" .null] }, .ok { rows := [.reduced (.string "a") .null] },
          .ok { rows := [.document "c" .null, .document "a" .null] }]).1 = .ok table ∧
      table.rows.map (·.id) = ["b", "a", "c"]) ∧
    ∃ fault, (load {} Fetch.ofReplies [.ok { rows := [.reduced (.string "a") .null] },
      .ok {}]).1 = .error fault := by
  constructor
  · obtain ⟨log, result, later, hload, hnotes, htable, -⟩ := load_keeps_every_request {}
      Fetch.ofReplies [.ok { rows := [.document "b" .null, .document "a" .null,
        .document "b" .null] }, .ok { rows := [.reduced (.string "a") .null] },
        .ok { rows := [.document "c" .null, .document "a" .null] }]
    rw [hload]
    rw [load, Fetch.run, Fetch.Stage.run_of_ask rfl rfl, Fetch.Stage.run_of_ask rfl rfl,
      Fetch.Stage.run_of_done rfl rfl] at hload hnotes
    obtain ⟨rfl, rfl⟩ := Prod.mk.inj hload
    obtain ⟨first, ids, hfirst, hids, -, -, -, hrows⟩ := htable _ rfl
    cases hnotes
    cases hfirst
    have : ids = ["b", "a", "b"] := by
      rw [← List.map_inj_right (fun _ _ => Option.some.inj), ← hids]
      rfl
    subst this
    exact ⟨_, rfl, hrows⟩
  · obtain ⟨log, result, later, hload, hnotes, -, hmissing⟩ := load_keeps_every_request {}
      Fetch.ofReplies [.ok { rows := [.reduced (.string "a") .null] }, .ok {}]
    rw [hload]
    rw [load, Fetch.run, Fetch.Stage.run_of_ask rfl rfl, Fetch.Stage.run_of_done rfl rfl] at hnotes
    cases hnotes
    exact hmissing (by simp [Fetch.IsAnswer, Fetch.ofReplies]) ⟨_, List.mem_cons_self, rfl⟩

end Cycles

end RequestBoard
