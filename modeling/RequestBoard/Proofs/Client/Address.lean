import RequestBoard.Client
import RequestBoard.Proofs.Text.Joined

/-!
# The address of a view

The address of a view is the URL of the document store with five segments below it.  Read from the left
there is no telling where the URL ends, since it may hold any text; but the segments are the last five
stretches of the address, as long as no name has a slash in it.

* `Client.SameButSlashes`, `trimSlashes_eq_iff` — slashes at the end of a URL do not count.
* `Client.segments`, `toList_viewUrl` — the segments of a view.
* `Client.viewUrl_tells_view` — **no two views share an address**.
-/

namespace RequestBoard.Client

/-! ## Slashes at the end -/

/-- As many slashes. -/
def slashes (count : Nat) : String := String.ofList (List.replicate count '/')

/-- Two URLs that become the same when slashes are put at their ends. -/
def SameButSlashes (couchUrl other : String) : Prop :=
  ∃ base count count', couchUrl = base ++ slashes count ∧ other = base ++ slashes count'

/-- Slashes at the end do not count. -/
theorem trimSlashes_append_slashes (text : String) (count : Nat) :
    trimSlashes (text ++ slashes count) = trimSlashes text := by
  have hslashes : ∀ c ∈ List.replicate count '/', (c == '/') = true := by
    intro c hc
    rw [List.eq_of_mem_replicate hc, beq_self_eq_true]
  rw [trimSlashes, trimSlashes, slashes, String.toList_append, String.toList_ofList,
    List.reverse_append, List.reverse_replicate, List.dropWhile_append_of_pos hslashes]

/-- What is trimmed off a text are slashes. -/
theorem exists_eq_trimSlashes_append (text : String) :
    ∃ count, text = trimSlashes text ++ slashes count := by
  have hslashes : ∀ c ∈ text.toList.reverse.takeWhile (· == '/'), c = '/' := fun c hc =>
    eq_of_beq (List.all_eq_true.1 List.all_takeWhile c hc)
  refine ⟨(text.toList.reverse.takeWhile (· == '/')).length, ?_⟩
  rw [← String.toList_inj, trimSlashes, slashes, String.toList_append, String.toList_ofList,
    String.toList_ofList, ← List.reverse_replicate, ← List.eq_replicate_of_mem hslashes,
    ← List.reverse_append, List.takeWhile_append_dropWhile, List.reverse_reverse]

/-- Texts are the same without the slashes at their ends if they differ in these only. -/
theorem trimSlashes_eq_iff {text other : String} :
    trimSlashes text = trimSlashes other ↔ SameButSlashes text other := by
  constructor
  · intro h
    obtain ⟨count, htext⟩ := exists_eq_trimSlashes_append text
    obtain ⟨count', hother⟩ := exists_eq_trimSlashes_append other
    exact ⟨trimSlashes text, count, count', htext, h ▸ hother⟩
  · rintro ⟨base, count, count', rfl, rfl⟩
    rw [trimSlashes_append_slashes, trimSlashes_append_slashes]

/-! ## Views -/

/-- The segments of a view. -/
def segments (client : Client) (view : String) : List (List Char) :=
  [client.database.toList, "_design".toList, client.design.toList, "_view".toList, view.toList]

/-- A view has its segments below the URL of the document store. -/
theorem toList_viewUrl (client : Client) (view : String) :
    (client.viewUrl view).toList = joined '/' client.base.toList (client.segments view) := by
  simp [viewUrl, joined, segments, String.toList_append]

/-- The names of a view without slashes are segments without slashes. -/
theorem slash_not_mem_segments {client : Client} {view : String}
    (h : ∀ name ∈ [client.database, client.design, view], '/' ∉ name.toList) :
    ∀ segment ∈ client.segments view, '/' ∉ segment := by
  simp only [List.forall_mem_cons] at h
  obtain ⟨hdatabase, hdesign, hview, -⟩ := h
  simp only [segments, List.forall_mem_cons]
  exact ⟨hdatabase, by decide, hdesign, by decide, hview, nofun⟩

/-- **No two views share an address.**  Slashes at the end of the URL of the document store do not change
the address of a view.  And if no name has a slash in it, two addresses are the same only if the URLs are
the same but for such slashes, and the databases, the design documents and the views are the same; the
URLs may hold any text, and the names may be empty or be those that stand between them. -/
theorem viewUrl_tells_view :
    (∀ (couchUrl database design view : String) (count : Nat),
      (make (couchUrl ++ slashes count) database design).viewUrl view =
        (make couchUrl database design).viewUrl view) ∧
    ∀ couchUrl database design view couchUrl' database' design' view' : String,
      (∀ name ∈ [database, design, view], '/' ∉ name.toList) →
      (∀ name ∈ [database', design', view'], '/' ∉ name.toList) →
      ((make couchUrl database design).viewUrl view =
          (make couchUrl' database' design').viewUrl view' ↔
        SameButSlashes couchUrl couchUrl' ∧ database = database' ∧ design = design' ∧ view = view') := by
  refine ⟨fun couchUrl database design view count => ?_, ?_⟩
  · rw [make, make, trimSlashes_append_slashes]
  · intro couchUrl database design view couchUrl' database' design' view' hnames hnames'
    have hsegments : ∀ segment ∈ segments (make couchUrl database design) view, '/' ∉ segment :=
      slash_not_mem_segments hnames
    have hsegments' : ∀ segment ∈ segments (make couchUrl' database' design') view', '/' ∉ segment :=
      slash_not_mem_segments hnames'
    rw [← String.toList_inj, toList_viewUrl, toList_viewUrl, joined_inj hsegments hsegments' rfl,
      String.toList_inj, ← trimSlashes_eq_iff]
    refine and_congr_right fun _ => ?_
    simp [segments, make, String.toList_inj]

/-- Names that are those between them, below a URL that ends in one of these. -/
theorem viewUrl_tells_view_of_markers :
    (∀ name ∈ ["", "_view", "_design"], '/' ∉ name.toList) ∧
      (∀ name ∈ ["_design", "_view", "_design"], '/' ∉ name.toList) ∧
      (make "http://h/_design//" "" "_view").viewUrl "_design" =
        "http://h/_design//_design/_view/_view/_design" ∧
      (make "http://h/_design//" "" "_view").viewUrl "_design" =
        (make "http://h/_design" "" "_view").viewUrl "_design" ∧
      SameButSlashes "http://h/_design//" "http://h/_design" ∧
      (make "http://h/_design//" "" "_view").viewUrl "_design" ≠
        (make "http://h" "_design" "_view").viewUrl "_design" := by
  have hnames : ∀ name ∈ ["", "_view", "_design"], '/' ∉ name.toList := by decide
  have hnames' : ∀ name ∈ ["_design", "_view", "_design"], '/' ∉ name.toList := by decide
  have hsame : (make "http://h/_design//" "" "_view").viewUrl "_design" =
      (make "http://h/_design" "" "_view").viewUrl "_design" := by decide
  refine ⟨hnames, hnames', by decide, hsame, ?_, fun hother => ?_⟩
  · exact ((viewUrl_tells_view.2 _ _ _ _ _ _ _ _ hnames hnames).1 hsame).1
  · exact absurd ((viewUrl_tells_view.2 _ _ _ _ _ _ _ _ hnames hnames').1 hother).2.1 (by decide)

end RequestBoard.Client
