import RequestBoard.Proofs.Startup.InForce

/-!
# The two checks of a configuration

A configuration is checked as its file states it, and once more as it is in force.  Between the two the
options are laid over it, which replaces at most the URL of the document store and the port; and as
nothing is required of a port, the checks can only come to different ends over the URL.

* `Config.IsHttp` — what is required of the URL of the document store.
* `Stated.config`, `gives_iff` — the one configuration that is stated.
* `Config.loadOrDefault_of_states` — loading what is found is checking what it states.
* `Options.usable_iff_of_override` — what is left of the first check once the second is passed.
* `Startup.check`, `configure_of_states`, `plan_of_states` — **the outcome of the two checks**.
* `Startup.overridden_url_decides` — a URL that is not in force ends the program.
* `Startup.serves_iff_passes_both` — **the result**.
-/

namespace RequestBoard

namespace Config

/-- A text is the URL of a document store as far as the check looks at it. -/
def IsHttp (url : String) : Prop := "http://".toList <+: url.toList ∨ "https://".toList <+: url.toList

/-! ## What is stated -/

/-- The configuration that is stated: what is not stated is left at its default. -/
def Stated.config (stated : Stated) : Config :=
  let text (setting : TextSetting) : String := (stated.text setting).getD (setting.get {})
  { couchUrl := text .couchUrl
    database := text .database
    design := text .design
    campaignView := text .campaignView
    latestView := text .latestView
    bind := text .bind
    port := stated.port.getD 5730
    requestTimeoutSecs := stated.timeout.getD 30
    logLevel := stated.level.getD "info" }

theorem Stated.gives_config (stated : Stated) : stated.Gives stated.config where
  text setting := by cases setting <;> rfl
  port := rfl
  timeout := rfl
  level := rfl

/-- What is stated gives the one configuration. -/
theorem Stated.gives_iff {stated : Stated} {config : Config} :
    stated.Gives config ↔ config = stated.config :=
  ⟨fun h => h.unique stated.gives_config, fun h => h ▸ stated.gives_config⟩

/-- **Loading is checking what is stated.** -/
theorem loadOrDefault_of_states {found : Found} {stated : Stated} (h : found.States stated) :
    loadOrDefault found = stated.config.validate.map fun _ => stated.config := by
  cases h with
  | unseen hunseen => exact loadOrDefault_of_unseen hunseen
  | file hdecode hparse hin =>
    have hread := ofEntries?_eq_some_iff.2 ⟨stated, hin, stated.gives_config⟩
    rw [loadOrDefault_of_seen rfl]
    simp only [load, hdecode, parse, ofToml?, hparse, Option.bind_some, hread]

/-- A file that can be read states what is read. -/
theorem exists_states {content : Bytes} {text : String} {config : Config}
    (hdecode : Utf8.decode? content = some text) (h : ofToml? text = some config) :
    ∃ stated, (Found.file content).States stated ∧ stated.config = config := by
  obtain ⟨entries, hparse, hentries⟩ := Option.bind_eq_some_iff.1 h
  obtain ⟨stated, hin, hgives⟩ := ofEntries?_eq_some_iff.1 hentries
  exact ⟨stated, .file hdecode hparse hin, (Stated.gives_iff.1 hgives).symm⟩

end Config

open Config (IsHttp Stated)

/-! ## Laying the options over it -/

namespace Options

/-- If the options make a usable configuration, only the URL can be wrong with the one below them. -/
theorem usable_iff_of_override {options : Options} {config : Config}
    (h : (options.override config).Usable) : config.Usable ↔ IsHttp config.couchUrl :=
  ⟨fun husable => husable.http, fun hhttp => ⟨hhttp, h.named, h.timeout⟩⟩

end Options

namespace Startup

variable {arguments : List Bytes} {environment : Environment} {files : Files} {given options : Options}
  {path? : Option FilePath} {stated : Stated}

/-! ## The outcome -/

/-- The outcome of the two checks. -/
def check (options : Options) (config : Config) : Except Failure Config :=
  match config.validate with
  | .error problem => .error (.loading problem)
  | .ok () => match (options.override config).validate with
    | .error problem => .error (.configuration problem)
    | .ok () => .ok (options.override config)

/-- **A configuration comes to the outcome of the two checks.** -/
theorem configure_of_states
    (h : (lookUp files (configPath? options environment)).States stated) :
    configure options environment files = check options stated.config := by
  rw [configure, Config.loadOrDefault_of_states h, check]
  cases stated.config.validate <;> rfl

/-- The two checks end well just when both configurations are usable. -/
theorem check_eq_ok_iff {config effective : Config} :
    check options config = .ok effective ↔
      (config.Usable ∧ (options.override config).Usable) ∧ options.override config = effective := by
  rw [check, ← Config.validate_eq_ok_iff, ← Config.validate_eq_ok_iff]
  cases config.validate with
  | error problem => simp
  | ok accepted =>
    cases (options.override config).validate with
    | error problem => simp
    | ok accepted => simp

/-- **The program fails or serves as the two checks have it.** -/
theorem plan_of_states (hgiven : Options.read? none {} arguments = some (.run given))
    (hvariables : given.withVariables? environment = some options)
    (hlocated : Config.Located given.config environment path?)
    (hstates : (lookUp files path?).States stated) :
    (∀ failure, check options stated.config = .error failure →
      plan arguments environment files = .fail failure) ∧
    ∀ config, (∃ ready, plan arguments environment files = .serve ready ∧ ready.config = config) ↔
      check options stated.config = .ok config := by
  have hpath : path? = configPath? options environment := by
    rw [configPath?, (Options.withVariables?_eq_some hvariables).1]
    exact Config.located_iff.1 hlocated
  subst hpath
  rw [plan_of_given hgiven, hvariables]
  simp only [planRun, configure_of_states hstates]
  cases check options stated.config with
  | error failure => simp
  | ok config => simp

/-- The program serves just when both configurations are usable. -/
theorem exists_serve_iff (hgiven : Options.read? none {} arguments = some (.run given))
    (hvariables : given.withVariables? environment = some options)
    (hlocated : Config.Located given.config environment path?)
    (hstates : (lookUp files path?).States stated) :
    (∃ ready, plan arguments environment files = .serve ready) ↔
      stated.config.Usable ∧ (options.override stated.config).Usable := by
  have hserve := (plan_of_states hgiven hvariables hlocated hstates).2
  constructor
  · rintro ⟨ready, hready⟩
    exact (check_eq_ok_iff.1 ((hserve ready.config).1 ⟨ready, hready, rfl⟩)).1
  · intro husable
    obtain ⟨ready, hready, -⟩ := (hserve _).2 (check_eq_ok_iff.2 ⟨husable, rfl⟩)
    exact ⟨ready, hready⟩

/-- **A URL that is not in force ends the program.**  Two files differ in the URL of the document store,
which both times gives way to the one on the command line; so what would be in force is the same, and
there is nothing wrong with it.  With one of the files the program fails, and with the other it serves. -/
theorem overridden_url_decides :
    let arguments := [Utf8.encode "--config=/c", Utf8.encode "--couch-url=http://u"]
    let given : Options := { config := some (Utf8.encode "/c"), couchUrl := some "http://u" }
    let environment : Environment := { find? := fun _ => none }
    let stating (url : String) : Files := fun _ => .file (Utf8.encode ("couch_url = '" ++ url ++ "'"))
    Options.read? none {} arguments = some (.run given) ∧
      given.withVariables? environment = some given ∧
      (∃ stated, (stating "ftp://nope" (Utf8.encode "/c")).States stated ∧
        (given.override stated.config).validate = .ok ()) ∧
      plan arguments environment (stating "ftp://nope") =
        .fail (.loading (.invalid (.notHttp "ftp://nope"))) ∧
      ∃ ready, plan arguments environment (stating "http://nope") = .serve ready := by
  intro arguments given environment stating
  have hgiven : Options.read? none {} arguments = some (.run given) := by decide +kernel
  have hvariables : given.withVariables? environment = some given := by decide +kernel +revert
  have hlocated : Config.Located given.config environment (some (Utf8.encode "/c")) := .argument rfl
  obtain ⟨stated, hstates, hconfig⟩ : ∃ stated,
      (lookUp (stating "ftp://nope") (some (Utf8.encode "/c"))).States stated ∧
        stated.config = { couchUrl := "ftp://nope" } :=
    Config.exists_states (by decide +kernel : _ = some "couch_url = 'ftp://nope'") (by decide +kernel)
  obtain ⟨stated', hstates', hconfig'⟩ : ∃ stated,
      (lookUp (stating "http://nope") (some (Utf8.encode "/c"))).States stated ∧
        stated.config = { couchUrl := "http://nope" } :=
    Config.exists_states (by decide +kernel : _ = some "couch_url = 'http://nope'") (by decide +kernel)
  have hinForce : Config.validate { couchUrl := "http://u" } = .ok () := rfl
  refine ⟨hgiven, hvariables, ⟨stated, hstates, ?_⟩, ?_, ?_⟩
  · rw [hconfig]
    exact hinForce
  · refine (plan_of_states hgiven hvariables hlocated hstates).1 _ ?_
    rw [hconfig]
    rfl
  · refine (exists_serve_iff hgiven hvariables hlocated hstates').2 ?_
    rw [hconfig']
    exact ⟨Config.validate_eq_ok_iff.1 rfl, Config.validate_eq_ok_iff.1 hinForce⟩

/-- **The program serves if its configuration passes both checks.**  The command line and the variables
being in order, and a file, if there is one, stating settings of the right types, the program gets to
serve just when the check accepts both the configuration that is stated and the one that is in force; what
is left of the first check once the second is passed is that the URL that is stated, or left at its
default, is an HTTP URL.  If the first check fails the program cannot load its configuration, and if only
the second does its configuration is invalid.  And between two files that make the same configuration in
force, only that the one URL is an HTTP URL and the other is not can make a difference; a port that
gives way to another makes none. -/
theorem serves_iff_passes_both (hgiven : Options.read? none {} arguments = some (.run given))
    (hvariables : given.withVariables? environment = some options)
    (hlocated : Config.Located given.config environment path?)
    (hstates : (lookUp files path?).States stated) :
    stated.Gives stated.config ∧ InForce given environment stated (options.override stated.config) ∧
    ((∃ ready, plan arguments environment files = .serve ready) ↔
      stated.config.validate = .ok () ∧ (options.override stated.config).validate = .ok ()) ∧
    ((∃ ready, plan arguments environment files = .serve ready) ↔
      (options.override stated.config).validate = .ok () ∧ IsHttp stated.config.couchUrl) ∧
    (∀ ready, plan arguments environment files = .serve ready →
      ready.config = options.override stated.config) ∧
    (∀ problem, stated.config.validate = .error problem →
      plan arguments environment files = .fail (.loading problem)) ∧
    (∀ problem, stated.config.validate = .ok () →
      (options.override stated.config).validate = .error problem →
        plan arguments environment files = .fail (.configuration problem)) ∧
    ∀ (other : Files) (stated' : Stated), (lookUp other path?).States stated' →
      options.override stated'.config = options.override stated.config →
      (IsHttp stated'.config.couchUrl ↔ IsHttp stated.config.couchUrl) →
        ((∃ ready, plan arguments environment other = .serve ready) ↔
          ∃ ready, plan arguments environment files = .serve ready) := by
  obtain ⟨hfail, hserve⟩ := plan_of_states hgiven hvariables hlocated hstates
  have hboth : ∀ {config : Config}, config.Usable ∧ (options.override config).Usable ↔
      (options.override config).Usable ∧ IsHttp config.couchUrl := by
    intro config
    rw [and_comm]
    exact and_congr_right Options.usable_iff_of_override
  have hexists := exists_serve_iff hgiven hvariables hlocated hstates
  refine ⟨stated.gives_config, inForce_override hvariables stated.gives_config, ?_, ?_, ?_, ?_, ?_, ?_⟩
  · rw [hexists, Config.validate_eq_ok_iff, Config.validate_eq_ok_iff]
  · rw [hexists, hboth, Config.validate_eq_ok_iff]
  · intro ready hready
    exact (check_eq_ok_iff.1 ((hserve _).1 ⟨ready, hready, rfl⟩)).2.symm
  · intro problem hproblem
    exact hfail _ (by rw [check, hproblem])
  · intro problem hvalid hproblem
    exact hfail _ (by rw [check, hvalid]; simp only [hproblem])
  · intro other stated' hstates' hsame hhttp
    rw [exists_serve_iff hgiven hvariables hlocated hstates', hexists, hboth, hboth, hsame, hhttp]

/-- Two files that differ in what gives way: in the port to the one in a variable, and in the URL to the one
on the command line. -/
theorem serves_iff_passes_both_of_overridden :
    let arguments := [Utf8.encode "--config=/c", Utf8.encode "--couch-url=http://u"]
    let environment : Environment :=
      { find? := fun name => [("WMSTATS_PORT", Utf8.encode "81")].lookup name }
    let files : Files := fun _ => .file (Utf8.encode "couch_url = 'http://a'\nport = 80\n")
    let other : Files := fun _ => .file (Utf8.encode "couch_url = 'https://b'\nport = 0\n")
    (∃ ready, plan arguments environment files = .serve ready ∧
        ready.config = { couchUrl := "http://u", port := 81 }) ∧
      ∃ ready, plan arguments environment other = .serve ready := by
  intro arguments environment files other
  let options : Options :=
    { config := some (Utf8.encode "/c"), couchUrl := some "http://u", port := some 81 }
  have hgiven : Options.read? none {} arguments =
      some (.run { config := some (Utf8.encode "/c"), couchUrl := some "http://u" }) := by
    decide +kernel
  have hvariables : Options.withVariables?
      { config := some (Utf8.encode "/c"), couchUrl := some "http://u" } environment = some options := by
    decide +kernel +revert
  have hlocated : Config.Located (some (Utf8.encode "/c")) environment (some (Utf8.encode "/c")) :=
    .argument rfl
  obtain ⟨stated, hstates, hconfig⟩ : ∃ stated,
      (lookUp files (some (Utf8.encode "/c"))).States stated ∧
        stated.config = { couchUrl := "http://a", port := 80 } :=
    Config.exists_states (by decide +kernel : _ = some "couch_url = 'http://a'\nport = 80\n")
      (by decide +kernel)
  obtain ⟨stated', hstates', hconfig'⟩ : ∃ stated,
      (lookUp other (some (Utf8.encode "/c"))).States stated ∧
        stated.config = { couchUrl := "https://b", port := 0 } :=
    Config.exists_states (by decide +kernel : _ = some "couch_url = 'https://b'\nport = 0\n")
      (by decide +kernel)
  obtain ⟨-, -, hserves, -, hinForce, -, -, hother⟩ :=
    serves_iff_passes_both hgiven hvariables hlocated hstates
  have hvalid : Config.validate { couchUrl := "http://u", port := 81 } = .ok () := rfl
  obtain ⟨ready, hready⟩ := hserves.2 (by rw [hconfig]; exact ⟨rfl, hvalid⟩)
  refine ⟨⟨ready, hready, ?_⟩, (hother other stated' hstates' ?_ ?_).2 ⟨ready, hready⟩⟩
  · rw [hinForce ready hready, hconfig]
    rfl
  · rw [hconfig, hconfig']
    rfl
  · rw [hconfig, hconfig']
    exact iff_of_true (Or.inr (by decide)) (Or.inl (by decide))

end Startup

end RequestBoard
