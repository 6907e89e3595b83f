import RequestBoard.Config.File

/-!
# What a configuration file states

A file states some of the settings, and the others keep their defaults.  This module says which settings
a file states by looking at its entries alone, and shows that loading goes by that.

* `Config.Stated`, `Stated.In` — the settings that a root table states, each with a value of its type.
* `Stated.Gives` — a configuration with the stated settings, and defaults for the others.
* `StatesLevel`, `PassesForLevel` — what may stand under `logging`, by its type and against it.
* `ofEntries?_eq_some_iff` — **a table is read exactly if it states settings**, and as what it states.
* `Found.States` — what is stated where nothing is seen, or a file.
* `Usable`, `validate_eq_ok_iff` — the configurations that pass the check.
* `loadOrDefault_eq_ok_iff` — **what can be loaded**.
-/

namespace RequestBoard.Config

open Toml (Value Entries)

/-! ## Settings -/

/-- The settings that are texts at the top of a file. -/
inductive TextSetting where
  | couchUrl | database | design | campaignView | latestView | bind
  deriving DecidableEq, Repr

/-- The key of a setting. -/
def TextSetting.key : TextSetting → String
  | couchUrl => "couch_url"
  | database => "database"
  | design => "design"
  | campaignView => "campaign_view"
  | latestView => "latest_view"
  | bind => "bind"

/-- The value of a setting in a configuration. -/
def TextSetting.get (config : Config) : TextSetting → String
  | couchUrl => config.couchUrl
  | database => config.database
  | design => config.design
  | campaignView => config.campaignView
  | latestView => config.latestView
  | bind => config.bind

/-- The settings that a file states. -/
structure Stated where
  text : TextSetting → Option String
  port : Option UInt16
  timeout : Option UInt64
  level : Option String

/-- The log level that the value of `logging` states: the value is a table, if there is one. -/
inductive StatesLevel : Option Value → Option String → Prop where
  | absent : StatesLevel none none
  | table {origin : Toml.Origin} {entries : Entries} {level : Option String} :
      entries.lookup "level" = level.map Value.string → StatesLevel (some (.table origin entries)) level

/-- The value of `logging` is no table, but passes as one.  The format library takes a list for the values
of a table, and looks at as many of them as there are keys; and a moment is a table with other keys to
it. -/
inductive PassesForLevel : Option Value → Option String → Prop where
  | list {level : String} {others : List Value} :
      PassesForLevel (some (.array (.string level :: others))) (some level)
  | emptyList : PassesForLevel (some (.array [])) none
  | moment {moment : Toml.Moment} : PassesForLevel (some (.moment moment)) none

/-- The entries of a root table state these settings and no others: under the key of a setting there is
its value, or nothing; only under `logging` there may be a value of another type, if it passes as one. -/
structure Stated.In (stated : Stated) (entries : Entries) : Prop where
  text : ∀ setting, entries.lookup setting.key = (stated.text setting).map Value.string
  port : entries.lookup "port" = stated.port.map fun port : UInt16 => Value.integer port.toNat
  timeout : entries.lookup "request_timeout_secs" =
    stated.timeout.map fun seconds : UInt64 => Value.integer seconds.toNat
  level : StatesLevel (entries.lookup "logging") stated.level ∨
    PassesForLevel (entries.lookup "logging") stated.level

/-- A configuration with the stated settings, and with the built-in defaults for the others. -/
structure Stated.Gives (stated : Stated) (config : Config) : Prop where
  text : ∀ setting, setting.get config = (stated.text setting).getD (setting.get {})
  port : config.port = stated.port.getD 5730
  timeout : config.requestTimeoutSecs = stated.timeout.getD 30
  level : config.logLevel = stated.level.getD "info"

/-! ## Values -/

/-- A text is read as it is stated, and what is not stated as its default. -/
theorem textOf?_eq_some_iff {fallback text : String} {value : Option Value} :
    textOf? fallback value = some text ↔
      ∃ stated : Option String, value = stated.map Value.string ∧ text = stated.getD fallback := by
  constructor
  · intro h
    cases value with
    | none => exact ⟨none, rfl, (Option.some.inj h).symm⟩
    | some value =>
      cases value with
      | string stated => exact ⟨some stated, rfl, (Option.some.inj h).symm⟩
      | integer | float | boolean | moment | array | table | tables => exact absurd h (by simp [textOf?])
  · rintro ⟨stated, rfl, rfl⟩
    cases stated <;> rfl

/-- A number is read as it is stated, if it does not exceed the bound. -/
theorem natOf?_eq_some_iff {bound fallback n : Nat} {value : Option Value} :
    natOf? bound fallback value = some n ↔
      ∃ stated : Option Nat, value = stated.map (fun m : Nat => Value.integer m) ∧
        (∀ m, stated = some m → m ≤ bound) ∧ n = stated.getD fallback := by
  constructor
  · intro h
    cases value with
    | none => exact ⟨none, rfl, by simp, (Option.some.inj h).symm⟩
    | some value =>
      cases value with
      | integer m =>
        simp only [natOf?, Option.ite_none_right_eq_some, Option.some.injEq] at h
        obtain ⟨⟨hpos, hle⟩, rfl⟩ := h
        refine ⟨some m.toNat, ?_, ?_, rfl⟩
        · rw [Option.map_some, Int.toNat_of_nonneg hpos]
        · intro k hk
          obtain rfl := Option.some.inj hk
          omega
      | string | float | boolean | moment | array | table | tables => exact absurd h (by simp [natOf?])
  · rintro ⟨stated, rfl, hbound, rfl⟩
    cases stated with
    | none => rfl
    | some m =>
      have hle := hbound m rfl
      simp only [natOf?, Option.map_some, Option.getD_some]
      rw [if_pos ⟨by omega, by omega⟩, Int.toNat_natCast]

/-- The log level is read if it is stated, and if something passes for it. -/
theorem levelOf?_eq_some_iff {fallback level : String} {value : Option Value} :
    levelOf? fallback value = some level ↔
      ∃ stated : Option String, (StatesLevel value stated ∨ PassesForLevel value stated) ∧
        level = stated.getD fallback := by
  constructor
  · intro h
    cases value with
    | none => exact ⟨none, Or.inl .absent, (Option.some.inj h).symm⟩
    | some value =>
      cases value with
      | table origin entries =>
        obtain ⟨stated, hentry, hlevel⟩ := textOf?_eq_some_iff.1 h
        exact ⟨stated, Or.inl (.table hentry), hlevel⟩
      | array items =>
        cases items with
        | nil => exact ⟨none, Or.inr .emptyList, (Option.some.inj h).symm⟩
        | cons first others =>
          obtain ⟨stated, hfirst, hlevel⟩ := textOf?_eq_some_iff.1 h
          obtain ⟨text, rfl, rfl⟩ := Option.map_eq_some_iff.1 hfirst.symm
          exact ⟨some text, Or.inr .list, hlevel⟩
      | moment moment => exact ⟨none, Or.inr .moment, (Option.some.inj h).symm⟩
      | string | integer | float | boolean | tables => exact absurd h (by simp [levelOf?])
  · rintro ⟨stated, hstated | hpasses, rfl⟩
    · cases hstated with
      | absent => rfl
      | table hentry => exact textOf?_eq_some_iff.2 ⟨stated, hentry, rfl⟩
    · cases hpasses <;> rfl

/-- A number that is kept in a word of any size: the word has all numbers up to the bound. -/
theorem natOf?_word {α : Type} {ofNat : Nat → α} {toNat : α → Nat} {bound : Nat}
    (hle : ∀ x, toNat x ≤ bound) (hofNat : ∀ x, ofNat (toNat x) = x)
    (htoNat : ∀ n ≤ bound, toNat (ofNat n) = n) (fallback : α) {word : α} {value : Option Value} :
    (∃ n, natOf? bound (toNat fallback) value = some n ∧ word = ofNat n) ↔
      ∃ stated : Option α, value = stated.map (fun x => Value.integer (toNat x)) ∧
        word = stated.getD fallback := by
  constructor
  · rintro ⟨n, hn, rfl⟩
    obtain ⟨stated, rfl, hbound, rfl⟩ := natOf?_eq_some_iff.1 hn
    refine ⟨stated.map ofNat, ?_, ?_⟩
    · cases stated with
      | none => rfl
      | some m => simp [htoNat m (hbound m rfl)]
    · cases stated with
      | none => exact hofNat fallback
      | some m => rfl
  · rintro ⟨stated, rfl, rfl⟩
    refine ⟨(stated.map toNat).getD (toNat fallback),
      natOf?_eq_some_iff.2 ⟨stated.map toNat, by rw [Option.map_map]; rfl, ?_, rfl⟩, ?_⟩
    · intro m hm
      obtain ⟨x, -, rfl⟩ := Option.map_eq_some_iff.1 hm
      exact hle x
    · cases stated <;> simp [hofNat]

theorem natOf?_port_iff {value : Option Value} {port : UInt16} :
    (∃ n, natOf? 65535 5730 value = some n ∧ port = n.toUInt16) ↔
      ∃ stated : Option UInt16, value = stated.map (fun x : UInt16 => Value.integer x.toNat) ∧
        port = stated.getD 5730 :=
  natOf?_word (fun x => Nat.le_of_lt_succ x.toNat_lt) (fun _ => UInt16.ofNat_toNat)
    (fun _ hn => UInt16.toNat_ofNat_of_lt' (Nat.lt_succ_of_le hn)) 5730

theorem natOf?_timeout_iff {value : Option Value} {seconds : UInt64} :
    (∃ n, natOf? 18446744073709551615 30 value = some n ∧ seconds = n.toUInt64) ↔
      ∃ stated : Option UInt64, value = stated.map (fun x : UInt64 => Value.integer x.toNat) ∧
        seconds = stated.getD 30 :=
  natOf?_word (fun x => Nat.le_of_lt_succ x.toNat_lt) (fun _ => UInt64.ofNat_toNat)
    (fun _ hn => UInt64.toNat_ofNat_of_lt' (Nat.lt_succ_of_le hn)) 30

/-! ## Tables -/

/-- **A table is read exactly if it states settings**, and then as the configuration that these give. -/
theorem ofEntries?_eq_some_iff {entries : Entries} {config : Config} :
    ofEntries? entries = some config ↔ ∃ stated : Stated, stated.In entries ∧ stated.Gives config := by
  constructor
  · intro h
    simp only [ofEntries?, Option.bind_eq_bind, Option.bind_eq_some_iff, Option.some.injEq] at h
    obtain ⟨couchUrl, hcouchUrl, database, hdatabase, design, hdesign, campaignView, hcampaignView,
      latestView, hlatestView, bind, hbind, port, hport, timeout, htimeout, level, hlevel, rfl⟩ := h
    obtain ⟨couchUrl?, hcouchUrl, rfl⟩ := textOf?_eq_some_iff.1 hcouchUrl
    obtain ⟨database?, hdatabase, rfl⟩ := textOf?_eq_some_iff.1 hdatabase
    obtain ⟨design?, hdesign, rfl⟩ := textOf?_eq_some_iff.1 hdesign
    obtain ⟨campaignView?, hcampaignView, rfl⟩ := textOf?_eq_some_iff.1 hcampaignView
    obtain ⟨latestView?, hlatestView, rfl⟩ := textOf?_eq_some_iff.1 hlatestView
    obtain ⟨bind?, hbind, rfl⟩ := textOf?_eq_some_iff.1 hbind
    obtain ⟨port?, hport, hportValue⟩ := natOf?_port_iff.1 ⟨port, hport, rfl⟩
    obtain ⟨timeout?, htimeout, htimeoutValue⟩ := natOf?_timeout_iff.1 ⟨timeout, htimeout, rfl⟩
    obtain ⟨level?, hstates, rfl⟩ := levelOf?_eq_some_iff.1 hlevel
    refine ⟨⟨fun
      | .couchUrl => couchUrl?
      | .database => database?
      | .design => design?
      | .campaignView => campaignView?
      | .latestView => latestView?
      | .bind => bind?, port?, timeout?, level?⟩, ⟨?_, hport, htimeout, hstates⟩,
      ⟨?_, hportValue, htimeoutValue, rfl⟩⟩
    · intro setting
      cases setting <;> assumption
    · intro setting
      cases setting <;> rfl
  · rintro ⟨stated, hin, hgives⟩
    have htext : ∀ setting : TextSetting,
        textOf? (setting.get {}) (entries.lookup setting.key) = some (setting.get config) :=
      fun setting => textOf?_eq_some_iff.2 ⟨_, hin.text setting, hgives.text setting⟩
    obtain ⟨port, hport, hportValue⟩ := natOf?_port_iff.2 ⟨_, hin.port, hgives.port⟩
    obtain ⟨timeout, htimeout, htimeoutValue⟩ := natOf?_timeout_iff.2 ⟨_, hin.timeout, hgives.timeout⟩
    have hlevel := levelOf?_eq_some_iff.2 ⟨_, hin.level, hgives.level⟩
    simp only [ofEntries?, Option.bind_eq_bind, Option.bind_eq_some_iff, Option.some.injEq]
    exact ⟨_, htext .couchUrl, _, htext .database, _, htext .design, _, htext .campaignView,
      _, htext .latestView, _, htext .bind, _, hport, _, htimeout, _, hlevel,
      by rw [← hportValue, ← htimeoutValue]; rfl⟩

/-! ## The check -/

/-- A configuration that the service can run with: the URL of the document store is an HTTP URL, no name
is blank, and there is time for a query. -/
structure Usable (config : Config) : Prop where
  http : "http://".toList <+: config.couchUrl.toList ∨ "https://".toList <+: config.couchUrl.toList
  named : ∀ name ∈ [config.database, config.design, config.campaignView, config.latestView],
    ∃ c ∈ name.toList, isBlank c = false
  timeout : config.requestTimeoutSecs ≠ 0

theorem startsWith_iff {text lead : String} : startsWith text lead = true ↔ lead.toList <+: text.toList :=
  List.isPrefixOf_iff_prefix

theorem isAllBlank_eq_false_iff {text : String} :
    isAllBlank text = false ↔ ∃ c ∈ text.toList, isBlank c = false := by
  simp [isAllBlank]

/-- No name of a configuration is blank. -/
theorem find?_names_eq_none_iff {config : Config} :
    (config.names.find? fun (_, value) => isAllBlank value) = none ↔
      ∀ name ∈ [config.database, config.design, config.campaignView, config.latestView],
        ∃ c ∈ name.toList, isBlank c = false := by
  simp only [List.find?_eq_none, names, Bool.not_eq_true, isAllBlank_eq_false_iff]
  simp

/-- **The check accepts the usable configurations and no others.** -/
theorem validate_eq_ok_iff {config : Config} : config.validate = .ok () ↔ config.Usable := by
  have hdefect : config.validate = .ok () ↔ config.defect? = none := by
    unfold validate
    cases config.defect? <;> simp
  rw [hdefect, defect?]
  by_cases hhttp : (startsWith config.couchUrl "http://" || startsWith config.couchUrl "https://") = true
  · rw [hhttp, Bool.not_true, if_neg Bool.false_ne_true]
    rw [Bool.or_eq_true, startsWith_iff, startsWith_iff] at hhttp
    cases hnames : config.names.find? fun (_, value) => isAllBlank value with
    | some blank =>
      refine ⟨fun h => absurd h (by simp), fun h => ?_⟩
      rw [find?_names_eq_none_iff.2 h.named] at hnames
      exact absurd hnames (by simp)
    | none =>
      simp only [ite_eq_right_iff, beq_iff_eq, reduceCtorEq, imp_false]
      exact ⟨fun h => ⟨hhttp, find?_names_eq_none_iff.1 hnames, h⟩, Usable.timeout⟩
  · rw [if_pos (by simpa using hhttp)]
    refine ⟨fun h => absurd h (by simp), fun h => absurd ?_ hhttp⟩
    rw [Bool.or_eq_true, startsWith_iff, startsWith_iff]
    exact h.http

theorem usable_default : Usable {} := validate_eq_ok_iff.1 rfl

/-! ## Files -/

/-- A file that states nothing. -/
def Stated.nothing : Stated := ⟨fun _ => none, none, none, none⟩

/-- What is found states these settings: where nothing is seen, nothing is stated, and a file states them
if it is a text, the text is TOML and its root table states them. -/
inductive Found.States : Found → Stated → Prop where
  | unseen {found : Found} : found.isSeen = false → States found .nothing
  | file {content : Bytes} {text : String} {entries : Entries} {stated : Stated} :
      Utf8.decode? content = some text → Toml.parse? text = some entries → stated.In entries →
        States (.file content) stated

/-- What is stated gives one configuration only. -/
theorem Stated.Gives.unique {stated : Stated} {config other : Config} (h : stated.Gives config)
    (hother : stated.Gives other) : config = other := by
  have htext : ∀ setting : TextSetting, setting.get config = setting.get other :=
    fun setting => (h.text setting).trans (hother.text setting).symm
  have hport : config.port = other.port := h.port.trans hother.port.symm
  have htimeout : config.requestTimeoutSecs = other.requestTimeoutSecs :=
    h.timeout.trans hother.timeout.symm
  have hlevel : config.logLevel = other.logLevel := h.level.trans hother.level.symm
  have hcouchUrl := htext .couchUrl
  have hdatabase := htext .database
  have hdesign := htext .design
  have hcampaignView := htext .campaignView
  have hlatestView := htext .latestView
  have hbind := htext .bind
  obtain ⟨_, _, _, _, _, _, _, _, _⟩ := config
  obtain ⟨_, _, _, _, _, _, _, _, _⟩ := other
  simp only [TextSetting.get] at *
  subst hcouchUrl hdatabase hdesign hcampaignView hlatestView hbind hport htimeout hlevel
  rfl

theorem gives_nothing {config : Config} : Stated.nothing.Gives config ↔ config = {} := by
  have hdefault : Stated.nothing.Gives {} := ⟨fun _ => rfl, rfl, rfl, rfl⟩
  exact ⟨fun h => h.unique hdefault, fun h => h ▸ hdefault⟩

/-- A text is accepted if its root table states settings that give a usable configuration. -/
theorem parse_eq_ok_iff {text : String} {config : Config} :
    parse text = .ok config ↔
      (∃ entries, Toml.parse? text = some entries ∧ ofEntries? entries = some config) ∧
        config.Usable := by
  rw [← Option.bind_eq_some_iff, ← ofToml?, parse]
  cases hread : ofToml? text with
  | none => simp
  | some read =>
    show (read.validate.map fun _ => read) = .ok config ↔ _
    rw [Option.some.injEq]
    cases hvalid : read.validate with
    | ok accepted =>
      have husable : read.Usable := validate_eq_ok_iff.1 hvalid
      exact ⟨fun h => Except.ok.inj h ▸ ⟨rfl, husable⟩, fun h => congrArg Except.ok h.1⟩
    | error problem =>
      refine ⟨fun h => absurd h (by simp [Except.map]), ?_⟩
      rintro ⟨rfl, husable⟩
      rw [validate_eq_ok_iff.2 husable] at hvalid
      exact absurd hvalid (by simp)

theorem loadOrDefault_of_unseen {found : Found} (h : found.isSeen = false) : loadOrDefault found = .ok {} :=
  if_neg (by rw [h]; exact Bool.false_ne_true)

theorem loadOrDefault_of_seen {found : Found} (h : found.isSeen = true) :
    loadOrDefault found = load found := if_pos h

/-- A file is loaded if its text is accepted. -/
theorem load_file_eq_ok_iff {content : Bytes} {config : Config} :
    load (.file content) = .ok config ↔
      ∃ text, Utf8.decode? content = some text ∧ parse text = .ok config := by
  rw [load]
  cases Utf8.decode? content <;> simp

/-- **What can be loaded** is what is stated, over the defaults, and only if that is usable. -/
theorem loadOrDefault_eq_ok_iff {found : Found} {config : Config} :
    loadOrDefault found = .ok config ↔
      (∃ stated, found.States stated ∧ stated.Gives config) ∧ config.Usable := by
  cases found with
  | nothing | unreachable =>
    rw [loadOrDefault_of_unseen rfl]
    constructor
    · intro h
      obtain rfl : {} = config := Except.ok.inj h
      exact ⟨⟨.nothing, .unseen rfl, gives_nothing.2 rfl⟩, usable_default⟩
    · rintro ⟨⟨stated, ⟨-⟩, hgives⟩, -⟩
      rw [gives_nothing.1 hgives]
  | directory | unreadable =>
    rw [loadOrDefault_of_seen rfl, load]
    refine ⟨nofun, ?_⟩
    rintro ⟨⟨stated, ⟨hunseen⟩, -⟩, -⟩
    exact absurd hunseen nofun
  | file content =>
    rw [loadOrDefault_of_seen rfl, load_file_eq_ok_iff]
    simp only [parse_eq_ok_iff, ofEntries?_eq_some_iff]
    constructor
    · rintro ⟨text, hdecode, ⟨entries, hparse, stated, hin, hgives⟩, husable⟩
      exact ⟨⟨stated, .file hdecode hparse hin, hgives⟩, husable⟩
    · rintro ⟨⟨stated, hstates, hgives⟩, husable⟩
      cases hstates with
      | unseen hunseen => exact absurd hunseen nofun
      | file hdecode hparse hin =>
        exact ⟨_, hdecode, ⟨_, hparse, stated, hin, hgives⟩, husable⟩

end RequestBoard.Config
