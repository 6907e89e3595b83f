import Mathlib.Data.List.Induction
import RequestBoard.Proofs.Text.Joined
import RequestBoard.Url
import RequestBoard.View.Query

/-!
# The settings of a query

A query is made by a sequence of settings, in which a later setting replaces an earlier one of its kind.
What is left is the last setting of each kind, and that is what the query has to say.

* `View.Flag`, `View.Kind` — the kinds of settings: the keys and each of the flags.
* `View.IsLast`, `isLast_concat` — **the last setting of its kind** in a sequence.
* `Query.get_ofSettings_iff`, `Query.keys_ofSettings_iff` — what a sequence of settings makes of a query.
* `View.Says`, `says_ofSettings` — **the keys and the pairs that a sequence of settings comes to**.
* `Query.map_pairText_params_inj` — the pairs of a query tell its flags.
-/

namespace RequestBoard.View

/-! ## Kinds -/

/-- The flags of a query. -/
inductive Flag where
  | includeDocs | reduce | group | descending
  deriving DecidableEq, Repr

namespace Flag

/-- The flags in the order in which they are sent. -/
def all : List Flag := [includeDocs, reduce, group, descending]

theorem mem_all (flag : Flag) : flag ∈ all := by cases flag <;> decide

/-- The name of a flag. -/
def name : Flag → String
  | includeDocs => "include_docs"
  | reduce => "reduce"
  | group => "group"
  | descending => "descending"

theorem name_inj {flag other : Flag} : flag.name = other.name ↔ flag = other := by
  cases flag <;> cases other <;> decide

/-- The setting of a flag. -/
def setting : Flag → Bool → Setting
  | includeDocs => .includeDocs
  | reduce => .reduce
  | group => .group
  | descending => .descending

/-- The value of a flag in a query, if it has been set. -/
def get (query : Query) : Flag → Option Bool
  | includeDocs => query.includeDocs
  | reduce => query.reduce
  | group => query.group
  | descending => query.descending

/-- The pair that is sent for a flag. -/
def pair (flag : Flag) (value : Bool) : String × String := (flag.name, Query.flagText value)

end Flag

/-- The kinds of settings. -/
inductive Kind where
  | keys
  | flag (flag : Flag)
  deriving DecidableEq, Repr

/-- The kind that a setting is of. -/
def Setting.kind : Setting → Kind
  | keys _ => .keys
  | includeDocs _ => .flag .includeDocs
  | reduce _ => .flag .reduce
  | group _ => .flag .group
  | descending _ => .flag .descending

@[simp] theorem Flag.kind_setting (flag : Flag) (value : Bool) :
    (flag.setting value).kind = .flag flag := by
  cases flag <;> rfl

/-! ## The last setting of a kind -/

/-- A setting is the last one of its kind in a sequence. -/
def IsLast (settings : List Setting) (setting : Setting) : Prop :=
  ∃ before after, settings = before ++ setting :: after ∧
    ∀ later ∈ after, later.kind ≠ setting.kind

theorem not_isLast_nil (setting : Setting) : ¬ IsLast [] setting := by
  rintro ⟨before, after, h, -⟩
  simp at h

/-- One more setting is the last of its kind, and for the other kinds nothing changes. -/
theorem isLast_concat {settings : List Setting} {last setting : Setting} :
    IsLast (settings ++ [last]) setting ↔
      setting = last ∨ last.kind ≠ setting.kind ∧ IsLast settings setting := by
  constructor
  · rintro ⟨before, after, h, hlater⟩
    cases after using List.reverseRecOn with
    | nil =>
      obtain ⟨-, hlast⟩ := List.append_inj' h rfl
      exact Or.inl (List.singleton_inj.1 hlast).symm
    | append_singleton after final =>
      rw [← List.cons_append, ← List.append_assoc] at h
      obtain ⟨hsettings, hlast⟩ := List.append_inj' h rfl
      obtain rfl := List.singleton_inj.1 hlast
      exact Or.inr ⟨hlater _ (by simp), before, after, hsettings,
        fun later hmem => hlater later (List.mem_append_left _ hmem)⟩
  · rintro (rfl | ⟨hkind, before, after, rfl, hlater⟩)
    · exact ⟨settings, [], rfl, nofun⟩
    · refine ⟨before, after ++ [last], by simp, fun later hmem => ?_⟩
      rcases List.mem_append.1 hmem with hafter | hlast
      · exact hlater later hafter
      · rw [List.mem_singleton.1 hlast]
        exact hkind

/-- Among the settings of a kind there is a last one. -/
theorem exists_isLast {settings : List Setting} {setting : Setting} (h : setting ∈ settings) :
    ∃ last, last.kind = setting.kind ∧ IsLast settings last := by
  induction settings using List.reverseRecOn with
  | nil => exact absurd h List.not_mem_nil
  | append_singleton settings final ih =>
    by_cases hkind : final.kind = setting.kind
    · exact ⟨final, hkind, isLast_concat.2 (Or.inl rfl)⟩
    · rcases List.mem_append.1 h with hmem | hfinal
      · obtain ⟨last, hlast, hisLast⟩ := ih hmem
        exact ⟨last, hlast, isLast_concat.2 (Or.inr ⟨hlast ▸ hkind, hisLast⟩)⟩
      · exact absurd (congrArg Setting.kind (List.mem_singleton.1 hfinal)).symm hkind

namespace Query

theorem ofSettings_concat (settings : List Setting) (last : Setting) :
    ofSettings (settings ++ [last]) = (ofSettings settings).set last := by
  rw [ofSettings, List.foldl_append]
  rfl

/-- A setting of a flag changes that flag and no other, and a setting of the keys changes no flag. -/
theorem get_set_iff {query : Query} {setting : Setting} {flag : Flag} {value : Bool} :
    flag.get (query.set setting) = some value ↔
      flag.setting value = setting ∨ setting.kind ≠ .flag flag ∧ flag.get query = some value := by
  cases setting <;> cases flag <;> simp [set, Flag.get, Flag.setting, Setting.kind, eq_comm]

/-- **A flag has the value that it was given last.** -/
theorem get_ofSettings_iff {settings : List Setting} {flag : Flag} {value : Bool} :
    flag.get (ofSettings settings) = some value ↔ IsLast settings (flag.setting value) := by
  induction settings using List.reverseRecOn with
  | nil =>
    refine iff_of_false ?_ (not_isLast_nil _)
    cases flag <;> simp [ofSettings, Flag.get]
  | append_singleton settings last ih =>
    rw [ofSettings_concat, get_set_iff, isLast_concat, Flag.kind_setting, ih]

/-- **The keys are those that were given last**, and there are none if none were ever given. -/
theorem keys_ofSettings_iff {settings : List Setting} {keys : List Json} :
    (ofSettings settings).keys = keys ↔
      IsLast settings (.keys keys) ∨ keys = [] ∧ ∀ setting ∈ settings, setting.kind ≠ .keys := by
  induction settings using List.reverseRecOn with
  | nil => simp [ofSettings, not_isLast_nil, eq_comm]
  | append_singleton settings last ih =>
    have hconcat : (∀ setting ∈ settings ++ [last], setting.kind ≠ .keys) ↔
        (∀ setting ∈ settings, setting.kind ≠ .keys) ∧ last.kind ≠ .keys := by
      simp [or_imp, forall_and]
    rw [ofSettings_concat, isLast_concat, hconcat]
    cases last with
    | keys given => simp [set, Setting.kind, eq_comm]
    | includeDocs | reduce | group | descending => simpa [set, Setting.kind] using ih

/-- A query is its keys and its flags. -/
theorem ext_iff_flags {query other : Query} :
    query = other ↔ query.keys = other.keys ∧ ∀ flag : Flag, flag.get query = flag.get other := by
  refine ⟨fun h => h ▸ ⟨rfl, fun _ => rfl⟩, fun ⟨hkeys, hflags⟩ => ?_⟩
  have hincludeDocs := hflags .includeDocs
  have hreduce := hflags .reduce
  have hgroup := hflags .group
  have hdescending := hflags .descending
  cases query
  cases other
  simp only [Flag.get] at *
  subst hkeys hincludeDocs hreduce hgroup hdescending
  rfl

/-- Nothing but the last setting of each kind counts. -/
theorem ofSettings_congr {settings others : List Setting}
    (h : ∀ setting, IsLast settings setting ↔ IsLast others setting) :
    ofSettings settings = ofSettings others := by
  refine ext_iff_flags.2 ⟨keys_ofSettings_iff.2 ?_, fun flag => Option.ext fun value => ?_⟩
  · rcases keys_ofSettings_iff.1 (rfl : (ofSettings others).keys = _) with hlast | ⟨hempty, hnever⟩
    · exact Or.inl ((h _).2 hlast)
    · refine Or.inr ⟨hempty, fun setting hmem hkind => ?_⟩
      obtain ⟨last, hlast, hisLast⟩ := exists_isLast hmem
      obtain ⟨before, after, rfl, -⟩ := (h last).1 hisLast
      exact hnever last (by simp) (hlast.trans hkind)
  · rw [get_ofSettings_iff, get_ofSettings_iff, h]

/-! ## Pairs -/

/-- The flags that are set in a query, with their values. -/
def given (query : Query) : List (Flag × Bool) :=
  Flag.all.filterMap fun flag => (flag.get query).map (flag, ·)

theorem mem_given_iff {query : Query} {flag : Flag} {value : Bool} :
    (flag, value) ∈ query.given ↔ flag.get query = some value := by
  simp [given, Flag.mem_all]

/-- The pairs of a query are those of the flags that are set. -/
theorem params_eq_map_given (query : Query) :
    query.params = query.given.map fun (flag, value) => flag.pair value := by
  simp only [given, List.map_filterMap, Option.map_map]
  rfl

/-- The names of the flags that are set, in their order. -/
theorem map_fst_params_sublist (query : Query) :
    (query.params.map Prod.fst).Sublist (Flag.all.map Flag.name) := by
  have hnames : ∀ flags : List Flag,
      ((flags.filterMap fun flag => (flag.get query).map (flag, ·)).map Prod.fst).Sublist flags := by
    intro flags
    induction flags with
    | nil => exact .slnil
    | cons flag rest ih =>
      rw [List.filterMap_cons]
      cases flag.get query with
      | none => exact ih.cons flag
      | some value => exact ih.cons_cons flag
  have hmap : query.params.map Prod.fst = (query.given.map Prod.fst).map Flag.name := by
    simp [params_eq_map_given, Flag.pair]
  rw [hmap]
  exact (hnames Flag.all).map _

/-- A pair of a query is the name of a flag that is set, and its value. -/
theorem mem_params_iff {query : Query} {flag : Flag} {text : String} :
    (flag.name, text) ∈ query.params ↔ ∃ value, flag.get query = some value ∧ text = flagText value := by
  rw [params_eq_map_given, List.mem_map]
  constructor
  · rintro ⟨⟨other, value⟩, hmem, hpair⟩
    obtain ⟨hname, htext⟩ := Prod.mk.inj hpair
    obtain rfl := Flag.name_inj.1 hname
    exact ⟨value, mem_given_iff.1 hmem, htext.symm⟩
  · rintro ⟨value, hget, rfl⟩
    exact ⟨(flag, value), mem_given_iff.2 hget, rfl⟩

/-! ## Texts -/

theorem flagText_inj {value other : Bool} : flagText value = flagText other ↔ value = other := by
  cases value <;> cases other <;> decide

/-- A name and a value with the equals sign between them. -/
theorem pairText_eq_joined (pair : String × String) :
    Url.pairText pair = joined '=' pair.1.toList [pair.2.toList] := by
  simp [Url.pairText, joined]

/-- The text of a flag tells the flag and its value. -/
theorem pairText_pair_inj {flag other : Flag} {value value' : Bool} :
    Url.pairText (flag.pair value) = Url.pairText (other.pair value') ↔
      flag = other ∧ value = value' := by
  refine ⟨fun h => ?_, fun ⟨hflag, hvalue⟩ => by rw [hflag, hvalue]⟩
  have hequals : ∀ value, ∀ part ∈ [(flagText value).toList], '=' ∉ part := by decide
  rw [pairText_eq_joined, pairText_eq_joined] at h
  obtain ⟨hname, htext⟩ := (joined_inj (hequals value) (hequals value') rfl).1 h
  exact ⟨Flag.name_inj.1 (String.toList_inj.1 hname),
    flagText_inj.1 (String.toList_inj.1 (List.singleton_inj.1 htext))⟩

/-- There is no ampersand in the text of a flag. -/
theorem ampersand_not_mem_pairText {query : Query} :
    ∀ pair ∈ query.params, '&' ∉ Url.pairText pair := by
  intro pair hpair
  rw [params_eq_map_given, List.mem_map] at hpair
  obtain ⟨⟨flag, value⟩, -, rfl⟩ := hpair
  cases flag <;> cases value <;> decide

/-- **The pairs of a query tell its flags**, those that are not set included. -/
theorem map_pairText_params_inj {query other : Query} :
    query.params.map Url.pairText = other.params.map Url.pairText ↔
      ∀ flag : Flag, flag.get query = flag.get other := by
  constructor
  · intro h flag
    rw [params_eq_map_given, params_eq_map_given, List.map_map, List.map_map] at h
    have hgiven : query.given = other.given := by
      refine (List.map_inj_right ?_).1 h
      rintro ⟨flag, value⟩ ⟨flag', value'⟩ htext
      obtain ⟨rfl, rfl⟩ := pairText_pair_inj.1 htext
      rfl
    refine Option.ext fun value => ?_
    rw [← mem_given_iff, hgiven, mem_given_iff]
  · intro h
    have hgiven : query.given = other.given := by simp only [given, h]
    rw [params_eq_map_given, params_eq_map_given, hgiven]

end Query

/-! ## What a sequence comes to -/

/-- A sequence of settings comes to these keys and these pairs: the keys are those that were given last,
if ever, and the pairs are the flags that were ever set, each with the value that it was given last, once
and in a fixed order. -/
structure Says (settings : List Setting) (keys : List Json) (pairs : List (String × String)) :
    Prop where
  keys : IsLast settings (.keys keys) ∨ keys = [] ∧ ∀ setting ∈ settings, setting.kind ≠ .keys
  order : (pairs.map Prod.fst).Sublist ["include_docs", "reduce", "group", "descending"]
  flags : ∀ (flag : Flag) (text : String), (flag.name, text) ∈ pairs ↔
    ∃ value, IsLast settings (flag.setting value) ∧ text = Query.flagText value

/-- **A query says what the settings come to.** -/
theorem says_ofSettings (settings : List Setting) :
    Says settings (Query.ofSettings settings).keys (Query.ofSettings settings).params where
  keys := Query.keys_ofSettings_iff.1 rfl
  order := Query.map_fst_params_sublist _
  flags flag text := by simp only [Query.mem_params_iff, Query.get_ofSettings_iff]

end RequestBoard.View
