import RequestBoard.Proofs.Config.Stated
import RequestBoard.Startup

/-!
# The settings in force

A setting may be given on the command line, by a variable, in the file or nowhere, and each of these
gives way to the one before it.  Only one file is ever looked at, and once it is seen it has to be right.
It is not seen if the system does not let its path be looked at.

* `Config.Located`, `located_iff` — the one path at which a file is looked for.
* `Options.Given`, `withVariables?_eq_some` — the options of a command line with the variables behind
  them.
* `Startup.Comes`, `Startup.InForce` — **the four sources of a setting in their order**, and a configuration
  whose settings all come from them.
* `Startup.configure_eq_ok_iff` — what it takes to have a configuration.
* `Startup.misplaced_level_is_in_force` — **a value of another type may be in force**.
* `Startup.settings_in_force` — **the result**.
-/

namespace RequestBoard

/-! ## The path of the file -/

namespace Config

/-- The path of the file is the one on the command line.  Without it, the path is the value of a
variable, if that is a text and not the empty one, and otherwise it is in the platform's directory. -/
inductive Located (argument : Option FilePath) (environment : Environment) : Option FilePath → Prop where
  | argument {path : FilePath} : argument = some path → Located argument environment (some path)
  | named {path : FilePath} {text : String} : argument = none →
      environment.find? "WMSTATS_CONFIG" = some path → path ≠ [] → Utf8.decode? path = some text →
        Located argument environment (some path)
  | platform : argument = none →
      (∀ path, environment.find? "WMSTATS_CONFIG" = some path → path = [] ∨ Utf8.decode? path = none) →
        Located argument environment (standardPath? environment)

/-- A file is looked for where it is located, and there is one such path at most. -/
theorem located_iff {argument path? : Option FilePath} {environment : Environment} :
    Located argument environment path? ↔ path? = locate? argument pathVariable environment := by
  have hnamed : ∀ path, (environment.find? pathVariable).filter (fun path =>
      !path.isEmpty && (Utf8.decode? path).isSome) = some path ↔
        environment.find? "WMSTATS_CONFIG" = some path ∧ path ≠ [] ∧
          ∃ text, Utf8.decode? path = some text := by
    intro path
    rw [Option.filter_eq_some_iff, pathVariable]
    simp [Option.isSome_iff_exists]
  simp only [locate?]
  generalize (environment.find? pathVariable).filter _ = named at hnamed ⊢
  constructor
  · rintro (hargument | ⟨hargument, hvariable, hne, htext⟩ | ⟨hargument, hunset⟩)
    · rw [hargument]
      rfl
    · rw [hargument, (hnamed _).2 ⟨hvariable, hne, _, htext⟩]
      rfl
    · cases named with
      | none =>
        rw [hargument]
        rfl
      | some path =>
        -- the variable counts, so it is not one of those that are passed over
        obtain ⟨hvariable, hne, text, htext⟩ := (hnamed path).1 rfl
        rcases hunset path hvariable with hempty | hnone
        · exact absurd hempty hne
        · exact absurd (htext.symm.trans hnone) (by simp)
  · rintro rfl
    cases argument with
    | some path => exact .argument rfl
    | none =>
      cases named with
      | some path =>
        obtain ⟨hvariable, hne, text, htext⟩ := (hnamed path).1 rfl
        exact .named rfl hvariable hne htext
      | none =>
        refine .platform rfl fun path hvariable => ?_
        cases htext : Utf8.decode? path with
        | none => exact Or.inr rfl
        | some text =>
          refine Or.inl (Decidable.byContradiction fun hne => ?_)
          exact absurd ((hnamed path).2 ⟨hvariable, hne, text, htext⟩) (by simp)

end Config

/-! ## Options and variables -/

namespace Options

/-- An option with a variable behind it: its value on the command line comes first, and without one the
variable has to spell a value if it is set. -/
inductive Given {α : Type} (read? : Bytes → Option α) : Option α → Option Bytes → Option α → Prop where
  | commandLine {value : α} {bytes? : Option Bytes} : Given read? (some value) bytes? (some value)
  | environment {bytes : Bytes} {value : α} :
      read? bytes = some value → Given read? none (some bytes) (some value)
  | neither : Given read? none none none

/-- Asking the variable behind an option either leaves the options as they are or puts in a value. -/
theorem given_of_orValue? {α : Type} (read? : Bytes → Option α) (put : α → Options)
    {given options : Options} {setting : CommandLine.Setting} {current : Option α}
    {bytes? : Option Bytes}
    (hset : current = none → ∀ bytes, given.set? setting bytes = (read? bytes).map put)
    (h : given.orValue? setting current.isSome bytes? = some options) :
    (options = given ∧ Given read? current bytes? current) ∨
      ∃ value, options = put value ∧ Given read? current bytes? (some value) := by
  cases current with
  | some value =>
    have hsame : given = options := by cases bytes? <;> exact Option.some.inj h
    exact Or.inl ⟨hsame.symm, .commandLine⟩
  | none =>
    cases bytes? with
    | none => exact Or.inl ⟨(Option.some.inj h).symm, .neither⟩
    | some bytes =>
      have hput : (read? bytes).map put = some options := (hset rfl bytes).symm.trans h
      obtain ⟨value, hread, hvalue⟩ := Option.map_eq_some_iff.1 hput
      exact Or.inr ⟨value, hvalue.symm, .environment hread⟩

/-- The options of a command line with the variables behind them. -/
theorem withVariables?_eq_some {given options : Options} {environment : Environment}
    (h : given.withVariables? environment = some options) :
    options.config = given.config ∧
      Given Utf8.decode? given.couchUrl (environment.find? "WMSTATS_COUCH_URL") options.couchUrl ∧
      Given CommandLine.port? given.port (environment.find? "WMSTATS_PORT") options.port := by
  obtain ⟨withUrl, hurl, hport⟩ := Option.bind_eq_some_iff.1 h
  have hwithUrl : withUrl.config = given.config ∧ withUrl.port = given.port ∧
      Given Utf8.decode? given.couchUrl (environment.find? "WMSTATS_COUCH_URL") withUrl.couchUrl := by
    rcases given_of_orValue? Utf8.decode? (fun url => { given with couchUrl := some url })
      (fun hnone bytes => by simp [set?, hnone]) hurl with ⟨rfl, hgiven⟩ | ⟨url, rfl, hgiven⟩
    · exact ⟨rfl, rfl, hgiven⟩
    · exact ⟨rfl, rfl, hgiven⟩
  obtain ⟨hconfig, hsamePort, hcouchUrl⟩ := hwithUrl
  rcases given_of_orValue? CommandLine.port? (fun port => { withUrl with port := some port })
    (fun hnone bytes => by simp [set?, hnone]) hport with ⟨rfl, hgiven⟩ | ⟨port, rfl, hgiven⟩
  · exact ⟨hconfig, hcouchUrl, hsamePort ▸ hgiven⟩
  · exact ⟨hconfig, hcouchUrl, hsamePort ▸ hgiven⟩

end Options

namespace Startup

/-! ## The four sources -/

/-- Where a setting comes from: an option first, then the variable behind it, then the file, and last of
all the built-in default. -/
inductive Comes {α : Type} (read? : Bytes → Option α) :
    Option α → Option Bytes → Option α → α → α → Prop where
  | commandLine {value fallback : α} {bytes? : Option Bytes} {stated : Option α} :
      Comes read? (some value) bytes? stated fallback value
  | environment {bytes : Bytes} {value fallback : α} {stated : Option α} :
      read? bytes = some value → Comes read? none (some bytes) stated fallback value
  | file {value fallback : α} : Comes read? none none (some value) fallback value
  | standard {fallback : α} : Comes read? none none none fallback fallback

theorem comes_of_given {α : Type} {read? : Bytes → Option α} {option : Option α}
    {bytes? : Option Bytes} {value? : Option α} (h : Options.Given read? option bytes? value?)
    (stated : Option α) (fallback : α) :
    Comes read? option bytes? stated fallback (value?.getD (stated.getD fallback)) := by
  cases h with
  | commandLine => exact .commandLine
  | environment hread => exact .environment hread
  | neither =>
    cases stated with
    | some value => exact .file
    | none => exact .standard

/-- A configuration whose settings all come from their sources.  The URL of the document store and the port
have four of them, the others have the file and the default. -/
structure InForce (given : Options) (environment : Environment) (stated : Config.Stated)
    (config : Config) : Prop where
  couchUrl : Comes Utf8.decode? given.couchUrl (environment.find? "WMSTATS_COUCH_URL")
    (stated.text .couchUrl) "http://127.0.0.1:5984" config.couchUrl
  port : Comes CommandLine.port? given.port (environment.find? "WMSTATS_PORT") stated.port 5730
    config.port
  text : ∀ setting : Config.TextSetting, setting ≠ .couchUrl →
    setting.get config = (stated.text setting).getD (setting.get {})
  timeout : config.requestTimeoutSecs = stated.timeout.getD 30
  level : config.logLevel = stated.level.getD "info"

/-- The options of a command line laid over what a file gives. -/
theorem inForce_override {given options : Options} {environment : Environment}
    (h : given.withVariables? environment = some options) {stated : Config.Stated} {loaded : Config}
    (hgives : stated.Gives loaded) : InForce given environment stated (options.override loaded) := by
  obtain ⟨-, hcouchUrl, hport⟩ := Options.withVariables?_eq_some h
  refine ⟨?_, ?_, ?_, hgives.timeout, hgives.level⟩
  · have hloaded : loaded.couchUrl = (stated.text .couchUrl).getD "http://127.0.0.1:5984" :=
      hgives.text .couchUrl
    show Comes _ _ _ _ _ (options.couchUrl.getD loaded.couchUrl)
    rw [hloaded]
    exact comes_of_given hcouchUrl _ _
  · show Comes _ _ _ _ _ (options.port.getD loaded.port)
    rw [hgives.port]
    exact comes_of_given hport _ _
  · intro setting hother
    have hsame := hgives.text setting
    cases setting with
    | couchUrl => exact absurd rfl hother
    | database | design | campaignView | latestView | bind => exact hsame

/-! ## Configuring -/

variable {options given : Options} {environment : Environment} {files : Files}

/-- What has been loaded is only checked once the options are laid over it. -/
theorem configure_of_loaded {loaded : Config}
    (h : Config.loadOrDefault (lookUp files (configPath? options environment)) = .ok loaded) :
    configure options environment files =
      match (options.override loaded).validate with
      | .error problem => .error (.configuration problem)
      | .ok () => .ok (options.override loaded) := by
  cases hvalid : (options.override loaded).validate <;> simp only [configure, h, hvalid]

/-- A configuration is had by loading one, laying the options over it, and finding it usable. -/
theorem configure_eq_ok_iff {config : Config} :
    configure options environment files = .ok config ↔
      (∃ loaded, Config.loadOrDefault (lookUp files (configPath? options environment)) = .ok loaded ∧
        config = options.override loaded) ∧ config.Usable := by
  cases hload : Config.loadOrDefault (lookUp files (configPath? options environment)) with
  | error problem =>
    rw [configure, hload]
    simp
  | ok loaded =>
    rw [configure_of_loaded hload]
    cases hvalid : (options.override loaded).validate with
    | ok accepted =>
      have husable : (options.override loaded).Usable := Config.validate_eq_ok_iff.1 hvalid
      constructor
      · intro h
        obtain rfl : options.override loaded = config := Except.ok.inj h
        exact ⟨⟨loaded, rfl, rfl⟩, husable⟩
      · rintro ⟨⟨same, hsame, rfl⟩, -⟩
        rw [Except.ok.inj hsame]
    | error problem =>
      refine ⟨fun h => absurd h (by simp), ?_⟩
      rintro ⟨⟨same, hsame, rfl⟩, husable⟩
      rw [Except.ok.inj hsame, Config.validate_eq_ok_iff.2 husable] at hvalid
      exact absurd hvalid (by simp)

/-- If what is found states nothing, there is no configuration: the defaults do not stand in for it. -/
theorem configure_of_not_states
    (h : ∀ stated, ¬ (lookUp files (configPath? options environment)).States stated) :
    ∃ problem, configure options environment files = .error (.loading problem) := by
  cases hload : Config.loadOrDefault (lookUp files (configPath? options environment)) with
  | error problem => exact ⟨problem, by rw [configure, hload]⟩
  | ok loaded =>
    obtain ⟨⟨stated, hstates, -⟩, -⟩ := Config.loadOrDefault_eq_ok_iff.1 hload
    exact absurd hstates (h stated)

/-! ## The whole program -/

variable {arguments : List Bytes}

/-- A command line that asks for nothing else asks to run, if the variables are in order. -/
theorem plan_of_given (h : Options.read? none {} arguments = some (.run given)) (files : Files) :
    plan arguments environment files =
      match given.withVariables? environment with
      | none => .misused
      | some options => planRun options environment files := by
  have hread : Command.read? arguments environment = (given.withVariables? environment).map .run := by
    rw [Command.read?, h]
  rw [plan, hread]
  cases given.withVariables? environment <;> rfl

/-- Whether the program serves, and with what, is up to the configuration. -/
theorem plan_eq_serve {ready : Ready} (h : plan arguments environment files = .serve ready) :
    ∃ given options, Options.read? none {} arguments = some (.run given) ∧
      given.withVariables? environment = some options ∧
      configure options environment files = .ok ready.config := by
  cases hread : Options.read? none {} arguments with
  | none => exact absurd h (by simp [plan, Command.read?, hread])
  | some command =>
    cases command with
    | help | version => exact absurd h (by simp [plan, Command.read?, hread])
    | run given =>
      rw [plan_of_given hread] at h
      cases hvariables : given.withVariables? environment with
      | none => exact absurd h (by simp [hvariables])
      | some options =>
        rw [hvariables] at h
        change planRun options environment files = .serve ready at h
        refine ⟨given, options, rfl, hvariables, ?_⟩
        cases hconfigure : configure options environment files with
        | error failure => exact absurd h (by simp [planRun, hconfigure])
        | ok config =>
          rw [planRun, hconfigure] at h
          rw [← Plan.serve.inj h]

/-- Options that come to a configuration make the program serve with it. -/
theorem exists_serve_of_configure {config : Config}
    (hgiven : Options.read? none {} arguments = some (.run given))
    (hvariables : given.withVariables? environment = some options)
    (h : (configure options environment files).toOption = some config) :
    ∃ ready, plan arguments environment files = .serve ready ∧ ready.config = config := by
  rw [plan_of_given hgiven, hvariables]
  show ∃ ready, planRun options environment files = .serve ready ∧ _
  cases hresult : configure options environment files with
  | error failure => exact absurd h (by simp [hresult, Except.toOption])
  | ok effective =>
    rw [hresult] at h
    rw [planRun, hresult]
    exact ⟨_, rfl, Option.some.inj h⟩

/-- What there is at any path but that of the file makes no difference. -/
theorem planRun_congr {other : Files}
    (h : lookUp other (configPath? options environment) =
      lookUp files (configPath? options environment)) :
    planRun options environment other = planRun options environment files := by
  simp only [planRun, configure, h]

/-- **A value of another type may be in force.**  There is a list under `logging`, which is no table, and
the program serves with the level that stands first in it.  And at a path that cannot be looked at, it
does not matter what there is: the program serves with the defaults. -/
theorem misplaced_level_is_in_force :
    let arguments := [Utf8.encode "--config=/c"]
    let environment : Environment := { find? := fun _ => none }
    let listing : Files := fun _ => .file (Utf8.encode "logging = ['warn', 5]")
    let locked : Files := fun _ => .unreachable "Permission denied (os error 13)"
    (∃ entries, Toml.parse? "logging = ['warn', 5]" = some entries ∧
        ∀ level, ¬ Config.StatesLevel (entries.lookup "logging") level) ∧
      (∃ ready, plan arguments environment listing = .serve ready ∧
        ready.config = { logLevel := "warn" }) ∧
      ∃ ready, plan arguments environment locked = .serve ready ∧ ready.config = {} := by
  intro arguments environment listing locked
  let given : Options := { config := some (Utf8.encode "/c") }
  have hgiven : Options.read? none {} arguments = some (.run given) := by decide +kernel
  have hvariables : given.withVariables? environment = some given := by decide +kernel +revert
  have hlist : (Toml.parse? "logging = ['warn', 5]").any (fun entries =>
      (entries.lookup "logging").any fun value => value matches .array _) = true := by
    decide +kernel
  refine ⟨?_, exists_serve_of_configure hgiven hvariables (by decide +kernel +revert),
    exists_serve_of_configure hgiven hvariables (by decide +kernel +revert)⟩
  obtain ⟨entries, hparse, hvalue⟩ := (Option.any_eq_true _ _).1 hlist
  obtain ⟨value, hlookup, harray⟩ := (Option.any_eq_true _ _).1 hvalue
  refine ⟨entries, hparse, fun level hstates => ?_⟩
  rw [hlookup] at hstates
  cases hstates with
  | table => exact absurd harray (by simp)

/-- **The settings in force.**  If the program gets as far as serving, its file is looked for at one path,
and each setting in force is the first that there is of an option, the variable behind it, what the file
states, and the default; the URL is an HTTP URL, no name is blank and the timeout is not zero.  What is
seen but is no file that can be read, or does not state settings of the right types, ends the program; but
a list or a moment passes for the table of `logging`.  And what there is at any other path makes no
difference. -/
theorem settings_in_force (arguments : List Bytes) (environment : Environment) (files : Files) :
    (∀ ready, plan arguments environment files = .serve ready →
      ∃ given path? stated, Options.read? none {} arguments = some (.run given) ∧
        Config.Located given.config environment path? ∧ (lookUp files path?).States stated ∧
        InForce given environment stated ready.config ∧ ready.config.Usable) ∧
    (∀ given path?, Options.read? none {} arguments = some (.run given) →
      Config.Located given.config environment path? →
      ((∀ stated, ¬ (lookUp files path?).States stated) →
        plan arguments environment files = .misused ∨
          ∃ problem, plan arguments environment files = .fail (.loading problem)) ∧
      (∀ other, lookUp other path? = lookUp files path? →
        plan arguments environment other = plan arguments environment files)) := by
  refine ⟨fun ready hserve => ?_, fun given path? hgiven hlocated => ?_⟩
  · obtain ⟨given, options, hgiven, hvariables, hconfigure⟩ := plan_eq_serve hserve
    obtain ⟨⟨loaded, hload, hoverride⟩, husable⟩ := configure_eq_ok_iff.1 hconfigure
    obtain ⟨⟨stated, hstates, hgives⟩, -⟩ := Config.loadOrDefault_eq_ok_iff.1 hload
    have hconfig := (Options.withVariables?_eq_some hvariables).1
    refine ⟨given, configPath? options environment, stated, hgiven, ?_, hstates, ?_, husable⟩
    · rw [← hconfig]
      exact Config.located_iff.2 rfl
    · rw [hoverride]
      exact inForce_override hvariables hgives
  · simp only [plan_of_given hgiven]
    cases hvariables : given.withVariables? environment with
    | none => exact ⟨fun _ => Or.inl rfl, fun _ _ => rfl⟩
    | some options =>
      have hpath : path? = configPath? options environment := by
        rw [configPath?, (Options.withVariables?_eq_some hvariables).1]
        exact Config.located_iff.1 hlocated
      subst hpath
      refine ⟨fun hstates => Or.inr ?_, fun other hother => planRun_congr hother⟩
      obtain ⟨problem, hproblem⟩ := configure_of_not_states hstates
      refine ⟨problem, ?_⟩
      show planRun options environment files = _
      rw [planRun, hproblem]

/-- The URL on the command line, the port in a variable over the one in the file, and a name in the file;
a directory in place of the file. -/
theorem settings_in_force_of_three :
    ∃ (environment : Environment) (files : Files) (ready : Ready),
      (∀ name, environment.find? name =
        List.lookup name [("WMSTATS_CONFIG", Utf8.encode "/c"), ("WMSTATS_PORT", Utf8.encode "81")]) ∧
      files (Utf8.encode "/c") = .file (Utf8.encode "port = 80\ndatabase = 'd'\n[logging]\n") ∧
      plan [Utf8.encode "--couch-url=http://u"] environment files = .serve ready ∧
      ready.config = { couchUrl := "http://u", database := "d", port := 81 } ∧
      (∃ given path? stated,
        Options.read? none {} [Utf8.encode "--couch-url=http://u"] = some (.run given) ∧
        Config.Located given.config environment path? ∧ (lookUp files path?).States stated ∧
        InForce given environment stated ready.config ∧ ready.config.Usable) ∧
      (plan [Utf8.encode "--couch-url=http://u"] environment (fun _ => .directory) = .misused ∨
        ∃ problem, plan [Utf8.encode "--couch-url=http://u"] environment (fun _ => .directory) =
          .fail (.loading problem)) := by
  let settings := [("WMSTATS_CONFIG", Utf8.encode "/c"), ("WMSTATS_PORT", Utf8.encode "81")]
  let environment : Environment := { find? := fun name => List.lookup name settings }
  let files : Files := fun path =>
    if path = Utf8.encode "/c" then .file (Utf8.encode "port = 80\ndatabase = 'd'\n[logging]\n")
    else .nothing
  have hgiven : Options.read? none {} [Utf8.encode "--couch-url=http://u"] =
      some (.run { couchUrl := some "http://u" }) := by decide +kernel
  have hvariables : Options.withVariables? { couchUrl := some "http://u" } environment =
      some { couchUrl := some "http://u", port := some 81 } := by decide +kernel +revert
  have hconfigure : (configure { couchUrl := some "http://u", port := some 81 } environment files).toOption =
      some { couchUrl := "http://u", database := "d", port := 81 } := by decide +kernel +revert
  obtain ⟨ready, hserve, hready⟩ := exists_serve_of_configure hgiven hvariables hconfigure
  have hlocated : Config.Located none environment (some (Utf8.encode "/c")) :=
    .named rfl rfl (by decide) (by decide +kernel : Utf8.decode? (Utf8.encode "/c") = some "/c")
  refine ⟨environment, files, ready, fun _ => rfl, if_pos rfl, hserve, hready,
    (settings_in_force _ environment files).1 ready hserve, ?_⟩
  exact ((settings_in_force _ environment fun _ => .directory).2 _ _ hgiven hlocated).1 nofun

end Startup

end RequestBoard
