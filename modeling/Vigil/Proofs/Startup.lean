import Vigil.Proofs.Composition
import Vigil.Proofs.Config.Checking
import Vigil.Proofs.Config.Layers
import Vigil.Rehearsal.Program

/-!
# What is accepted can be started

Between a configuration that was loaded and the first calls of a session stand three more things
that could refuse it: the name of the log format, the runner, which validates once more, and the
registry of the built-in observers. None of them does. So arguments that pass when they only check
are those with which the program goes on to the first phase.

The module introduces:

* `Program.start`, the program up to its session;
* `Runner.ReachesSetup`, a session that begins with the setup calls of its observers;
* `Program.Accepts`, what is certain of starting.
-/

namespace Vigil

/-! ## The log format -/

theorem LogFormat.exists_ofName_iff (name : String) :
    (∃ format, ofName name = .ok format) ↔ name ∈ Config.logFormats := by
  unfold ofName Config.logFormats
  by_cases isJson : name = "json"
  · simp [isJson]
  · by_cases isPretty : name = "pretty"
    · simp [isPretty]
    · simp [isJson, isPretty]

namespace Config

variable {c : Config} {path : String} {content : Except FileError (List UInt8)}
  {env : Environment} {amend : Config → Config}

/-- A valid configuration fulfils all conditions that `validate` goes through. -/
theorem conditions_of_validate (valid : c.validate = .ok ()) : ∀ k ∈ conditions, k.Holds c := by
  by_contra some
  obtain ⟨before, k, after, cut, holds, fails⟩ := exists_first some
  rw [validate_eq, cut, forM_check_of_first holds fails] at valid
  cases valid

theorem logFormat_of_validate (valid : c.validate = .ok ()) :
    c.general.logFormat ∈ logFormats :=
  conditions_of_validate valid conditions[1] (by simp [conditions])

/-- A configuration is loaded only if it is valid, since `load` ends with the check. -/
theorem validate_of_load (loaded : load path content env amend = .ok c) :
    c.validate = .ok () := by
  obtain ⟨file, -, loaded⟩ := exists_of_bind_eq_ok loaded
  obtain ⟨⟨⟩, valid, same⟩ := exists_of_bind_eq_ok loaded
  cases same
  exact valid

end Config

/-! ## The observers -/

namespace Registry

variable {r r' extra : Registry}

theorem eq_of_entries (same : r.entries = r'.entries) : r = r' := by
  cases r
  cases r'
  cases same
  rfl

/-- Registers the observers of `es` one after the other, and stops at the first that is refused. -/
def registerAll (r : Registry) (es : List Registration) : Except Error Registry :=
  es.foldlM (fun r e => r.register e.name e.owner) r

theorem registerAll_of_free {es : List Registration}
    (named : ∀ e ∈ es, Text.isBlankText e.name = false)
    (distinct : (es.map Registration.name).Nodup) (free : ∀ e ∈ es, e.name ∉ r.names) :
    ∃ r', r.registerAll es = .ok r' ∧ r'.entries = r.entries ++ es := by
  induction es generalizing r with
  | nil => exact ⟨r, rfl, (List.append_nil _).symm⟩
  | cons e rest ih =>
    obtain ⟨first, others⟩ := List.nodup_cons.1 distinct
    obtain ⟨r', added⟩ :=
      exists_register e.owner (named e List.mem_cons_self) (free e List.mem_cons_self)
    have grown := entries_of_register added
    -- The names of the others are still free.
    have still : ∀ e' ∈ rest, e'.name ∉ r'.names := by
      intro e' later taken
      unfold names at taken
      rw [grown, List.map_append, List.mem_append] at taken
      rcases taken with before | now
      · exact free e' (List.mem_cons_of_mem e later) before
      · exact first (List.mem_singleton.1 now ▸ List.mem_map_of_mem later)
    obtain ⟨r'', all, same⟩ :=
      ih (fun e' later => named e' (List.mem_cons_of_mem e later)) others still
    refine ⟨r'', ?_, ?_⟩
    · show (r.register e.name e.owner >>= fun r => r.registerAll rest) = _
      rw [added]
      exact all
    · rw [same, grown, List.append_assoc]
      rfl

/-- A registry is refused exactly if one of its names is taken in `r`. -/
theorem compose_eq_error_iff :
    (∃ e, r.compose extra = .error e) ↔ ∃ name ∈ extra.names, name ∈ r.names := by
  rcases free_or_collision r extra with free | ⟨before, c, after, cut, taken, first⟩
  · obtain ⟨r', added⟩ := exists_compose free
    rw [added]
    refine iff_of_false nofun ?_
    rintro ⟨name, new, taken⟩
    exact free name new taken
  · rw [compose_of_collision cut taken first]
    refine iff_of_true ⟨_, rfl⟩ ⟨c.name, ?_, taken⟩
    unfold names
    rw [cut]
    simp

end Registry

/-- The built-in observers that take part under the settings `s`, in their order. -/
def enabledBuiltins (s : ObserverSettings) : List Registration :=
  builtinEntries.filter fun e => s.isEnabled e.name

theorem entries_builtinRegistry (s : ObserverSettings) :
    (builtinRegistry s).entries = enabledBuiltins s := by
  unfold builtinRegistry enabledBuiltins builtinEntries
  cases enabled : s.isEnabled clusterInfoName <;> simp [enabled]

theorem names_builtinRegistry (s : ObserverSettings) :
    (builtinRegistry s).names = builtinNames.filter fun name => name ∉ s.disabled := by
  have all : builtinNames = builtinEntries.map Registration.name := rfl
  have taking : (fun name => decide (name ∉ s.disabled)) = s.isEnabled := by
    funext name
    simp [ObserverSettings.isEnabled]
  unfold Registry.names
  rw [entries_builtinRegistry, all, List.filter_map, taking]
  rfl

theorem registerAll_enabledBuiltins (s : ObserverSettings) :
    ({} : Registry).registerAll (enabledBuiltins s) = .ok (builtinRegistry s) := by
  have named := (builtinRegistry s).named
  have distinct := (builtinRegistry s).distinct
  rw [entries_builtinRegistry] at named distinct
  obtain ⟨r, added, same⟩ :=
    Registry.registerAll_of_free (r := {}) named distinct fun _ _ => List.not_mem_nil
  rw [added, Registry.eq_of_entries (same.trans (entries_builtinRegistry s).symm)]

namespace Runner

variable {c : Config} {r r' : Runner} {extra : Registry}

theorem ofConfig_eq_ok_iff :
    ofConfig c = .ok r ↔ c.validate = .ok () ∧ r = ⟨c, builtinRegistry c.observers⟩ := by
  unfold ofConfig
  cases c.validate with
  | error e => simp
  | ok => simp [eq_comm]

/-- A runner is refused for what is wrong with its configuration, and for nothing else. -/
theorem ofConfig_eq_error_iff {e : RunnerError} :
    ofConfig c = .error e ↔ ∃ cause, c.validate = .error cause ∧ e = .invalidConfig cause := by
  unfold ofConfig
  cases c.validate with
  | error cause => simp [eq_comm]
  | ok => simp

/-- Further observers are refused exactly if one of them has the name of a built-in observer that
takes part. -/
theorem withObservers_eq_error_iff (built : ofConfig c = .ok r) :
    (∃ e, r.withObservers extra = .error e) ↔
      ∃ name ∈ builtinNames, name ∉ c.observers.disabled ∧ name ∈ extra.names := by
  obtain ⟨-, rfl⟩ := ofConfig_eq_ok_iff.1 built
  have refused : (∃ e, (Runner.mk c (builtinRegistry c.observers)).withObservers extra = .error e) ↔
      ∃ e, (builtinRegistry c.observers).compose extra = .error e := by
    unfold withObservers
    cases (builtinRegistry c.observers).compose extra <;> simp
  rw [refused, Registry.compose_eq_error_iff, names_builtinRegistry]
  constructor
  · rintro ⟨name, new, taken⟩
    obtain ⟨builtin, enabled⟩ := List.mem_filter.1 taken
    exact ⟨name, builtin, by simpa using enabled, new⟩
  · rintro ⟨name, builtin, enabled, new⟩
    exact ⟨name, new, List.mem_filter.2 ⟨builtin, by simpa using enabled⟩⟩

theorem entries_of_withObservers (added : r.withObservers extra = .ok r') :
    r'.config = r.config ∧ r'.registry.entries = r.registry.entries ++ extra.entries := by
  unfold withObservers at added
  cases grown : r.registry.compose extra with
  | error e => simp [grown] at added
  | ok registry =>
    simp only [grown] at added
    cases added
    exact ⟨rfl, Registry.entries_of_compose grown⟩

/-! ## The first phase -/

/-- The calls with which a session of the runner `r` begins. -/
def setupRequest (r : Runner) : JoinRequest :=
  ⟨r.registry.entries, .setup (ClusterAccess.ofConfig r.config),
    ⟨r.config.lifecycle.limits.phaseTimeout, r.config.lifecycle.limits.cancelGrace⟩⟩

/-- On every platform a session of the runner `r` first makes the setup calls of its observers,
unless the run is cancelled before, and the rest of it goes on from what comes of them. -/
def ReachesSetup (r : Runner) : Prop :=
  ∀ {ε : Type} (platform : Platform ε) (suffix : String) (length : Option Duration),
    ∃ rest : Conduct ε Summary, ∀ (runId : String) (scene : Scene ε),
      scene.controls.runCancelled = false →
        (r.begin runId scene).perform ((r.prepare suffix).executeWith platform length) =
          match platform.join r.setupRequest ((r.begin runId scene).sceneOf .setup) with
          | (some outcomes, after) =>
            ((r.begin runId scene).settledWith r.setupRequest.call outcomes after).perform rest
          | (none, after) =>
            (.error .overflow, { (r.begin runId scene).begun .setup with scene := after })

/-- Nothing stands between a runner and the first phase, whatever its configuration says. -/
theorem reachesSetup (r : Runner) : r.ReachesSetup := by
  intro ε platform suffix length
  obtain ⟨rest, first⟩ : ∃ rest, (r.prepare suffix).executeWith platform length =
      Conduct.setup platform (ClusterAccess.ofConfig r.config) >>= fun _ => rest := ⟨_, rfl⟩
  refine ⟨rest, fun runId scene going => ?_⟩
  have ready : (Call.setup (ClusterAccess.ofConfig r.config)).phase.Ready
      (r.begin runId scene).orchestrator.state := by
    show Phase.setup.Ready State.pending
    decide
  have calls := (r.begin runId scene).perform_phase_of_going platform ready going
  have request : (r.begin runId scene).requestOf (.setup (ClusterAccess.ofConfig r.config)) =
      r.setupRequest := rfl
  rw [first, Progress.perform_bind, Conduct.setup, Progress.perform_bind, calls, request]
  simp only [Call.phase]
  rcases platform.join r.setupRequest ((r.begin runId scene).sceneOf .setup)
    with ⟨_ | outcomes, after⟩ <;> rfl

end Runner

/-! ## The program -/

theorem Rehearsal.SessionPlan.exists_play {plan : SessionPlan} {r : Runner}
    (planned : plan.runner = .ok r) :
    ∃ account, plan.play = .ok account ∧ account.runner = r := by
  unfold play
  rw [planned]
  simp only [bind, Except.bind]
  generalize (r.begin plan.runId (plan.scene r)).perform _ = result
  obtain ⟨summary, progress⟩ := result
  exact ⟨_, rfl, rfl⟩

namespace Program

/-- The program up to its session, with the files that it can read by `contentAt`: the runner to
execute, or how the program ends without a session. -/
def start (arguments : List (List UInt8)) (contentAt : String → Except FileError (List UInt8))
    (env : Environment) : Except Exit Runner :=
  match CommandLine.parse arguments with
  | .error stop => .error (exitOfUsage stop)
  | .ok line => prepare line (contentAt line.configPath) env

/-- How the program ends after it has checked a configuration at `path` that is valid. -/
def passed (path : String) : Exit := ⟨0, ["configuration is valid: " ++ path], ""⟩

section
variable {line : CommandLine} {content : Except FileError (List UInt8)} {env : Environment}
  {c : Config} {path : String}

theorem prepare_of_refused {e : Error}
    (refused : Config.load line.configPath content env line.amend = .error e) :
    prepare line content env = .error (exitOfError (.notLoaded e)) := by
  unfold prepare
  rw [refused]

theorem prepare_of_checking (check : line.validate = true)
    (loaded : Config.load line.configPath content env line.amend = .ok c) :
    prepare line content env = .error (passed line.configPath) := by
  unfold prepare
  rw [loaded, check]
  rfl

theorem prepare_of_running (run : line.validate = false)
    (loaded : Config.load line.configPath content env line.amend = .ok c) :
    prepare line content env = .ok ⟨c, builtinRegistry c.observers⟩ := by
  have valid := Config.validate_of_load loaded
  obtain ⟨format, known⟩ :=
    (LogFormat.exists_ofName_iff _).2 (Config.logFormat_of_validate valid)
  have built := Runner.ofConfig_eq_ok_iff.2 ⟨valid, rfl⟩
  unfold prepare
  rw [loaded, run]
  simp [known, built]

/-- A runner comes only from a configuration that was loaded, and only if more than a check was
asked for. -/
theorem exists_load_of_prepare {r : Runner} (prepared : prepare line content env = .ok r) :
    line.validate = false ∧ ∃ c, Config.load line.configPath content env line.amend = .ok c := by
  unfold prepare at prepared
  cases loaded : Config.load line.configPath content env line.amend with
  | error e => simp [loaded] at prepared
  | ok c =>
    cases check : line.validate with
    | true => simp [loaded, check] at prepared
    | false => exact ⟨rfl, c, rfl⟩

theorem exitOfError_ne_passed (e : RunnerError) : exitOfError e ≠ passed path := by
  intro same
  cases congrArg Exit.code same

theorem exitOfUsage_ne_passed (stop : UsageStop) : exitOfUsage stop ≠ passed path := by
  intro same
  have output := congrArg Exit.output same
  cases stop with
  | help => simp [exitOfUsage, passed, helpLines] at output
  | version =>
    -- The lines begin with different characters.
    have first := congrArg (fun lines => lines.head?.bind fun line => line.toList.head?) output
    simp [exitOfUsage, passed, versionLine] at first
  | _ => simp [exitOfUsage, passed] at output

end

/-- Wherever the option to check may begin: arguments pass with it exactly if the program goes on to
its session without it. Both read the same file and the same layers. -/
theorem passes_iff {before : List (List UInt8)} (begins : CommandLine.OptionMayFollow before)
    (after : List (List UInt8)) (contentAt : String → Except FileError (List UInt8))
    (env : Environment) :
    (∃ path, start (before ++ CommandLine.checkArgument :: after) contentAt env =
      .error (passed path)) ↔ ∃ r, start (before ++ after) contentAt env = .ok r := by
  unfold start
  rcases CommandLine.parse_insert begins after with ⟨line, asked, run, within⟩ |
    ⟨⟨stop, refused⟩, only⟩
  · rw [asked, within]
    -- The check is of no matter to the configuration that is loaded.
    let checking : CommandLine := { line with validate := true }
    have same : checking.amend = line.amend := rfl
    show (∃ path, prepare checking (contentAt line.configPath) env = _) ↔
      ∃ r, prepare line (contentAt line.configPath) env = _
    cases loaded : Config.load line.configPath (contentAt line.configPath) env line.amend with
    | error e =>
      have refused : prepare checking (contentAt line.configPath) env = _ :=
        prepare_of_refused (same ▸ loaded)
      rw [refused, prepare_of_refused loaded]
      refine iff_of_false ?_ nofun
      rintro ⟨path, ends⟩
      exact exitOfError_ne_passed _ (Except.error.inj ends)
    | ok c =>
      have passes : prepare checking (contentAt line.configPath) env =
          .error (passed line.configPath) := prepare_of_checking rfl (same ▸ loaded)
      rw [passes, prepare_of_running run loaded]
      exact iff_of_true ⟨line.configPath, rfl⟩ ⟨_, rfl⟩
  · rw [refused]
    refine iff_of_false ?_ ?_
    · rintro ⟨path, same⟩
      exact exitOfUsage_ne_passed stop (Except.error.inj same)
    · rintro ⟨r, prepared⟩
      cases asked : CommandLine.parse (before ++ after) with
      | error stop => simp [asked] at prepared
      | ok line =>
        rw [asked] at prepared
        obtain ⟨run, -⟩ := exists_load_of_prepare prepared
        cases run.symm.trans (only line asked)

theorem ofConfig_of_prepare {line : CommandLine} {content : Except FileError (List UInt8)}
    {env : Environment} {r : Runner} (prepared : prepare line content env = .ok r) :
    Runner.ofConfig r.config = .ok r := by
  obtain ⟨run, c, loaded⟩ := exists_load_of_prepare prepared
  obtain rfl := Except.ok.inj (prepared.symm.trans (prepare_of_running run loaded))
  exact Runner.ofConfig_eq_ok_iff.2 ⟨Config.validate_of_load loaded, rfl⟩

/-- A program that goes on to its session executes it with the runner that `start` has prepared. -/
theorem rehearse_of_start {arguments : List (List UInt8)} {files : FileTree} {env : Environment}
    {r : Runner} (started : start arguments files.contentAt env = .ok r) (signal : Bool)
    (runId suffix : String) :
    ∃ account : Rehearsal.SessionAccount, account.runner = r ∧
      Rehearsal.rehearseProgram arguments env files signal runId suffix =
        (exitOfSession account.summary, account.progress.scene.files) := by
  unfold start at started
  cases asked : CommandLine.parse arguments with
  | error stop => simp [asked] at started
  | ok line =>
    simp only [asked] at started
    have built := ofConfig_of_prepare started
    -- No further observers are taken in, so the runner stays as it is.
    have alone : r.withObservers {} = .ok r := by
      obtain ⟨grown, added⟩ : ∃ grown, r.registry.compose {} = .ok grown :=
        Registry.exists_compose fun _ member => absurd member List.not_mem_nil
      have same : grown = r.registry :=
        Registry.eq_of_entries ((Registry.entries_of_compose added).trans (List.append_nil _))
      unfold Runner.withObservers
      rw [added, same]
    have plays (plan : Rehearsal.SessionPlan) (config : plan.config = r.config)
        (none : plan.observers = []) : ∃ account, plan.play = .ok account ∧ account.runner = r := by
      refine Rehearsal.SessionPlan.exists_play ?_
      unfold Rehearsal.SessionPlan.runner
      rw [config, built, none]
      exact alone
    obtain ⟨account, played, same⟩ := plays
      { config := r.config, files, runId, suffix
        errands := if signal then [(1, .escalate)] else [] } rfl rfl
    refine ⟨account, same, ?_⟩
    unfold Rehearsal.rehearseProgram
    simp only [asked, started, played]

end Program

/-- What is certain of starting the program: whatever it accepts when it only checks can be
started. -/
structure Program.Accepts : Prop where
  /-- The words for log formats in valid configurations are those that are known. -/
  formats : ∀ name, (∃ format, LogFormat.ofName name = .ok format) ↔ name ∈ Config.logFormats
  /-- A configuration that was loaded has a log format and a runner. -/
  loaded : ∀ path content env amend c, Config.load path content env amend = .ok c →
    (∃ format, LogFormat.ofName c.general.logFormat = .ok format) ∧
      ∃ r, Runner.ofConfig c = .ok r
  /-- The observers of a runner are the built-in ones that are not disabled, in their order. -/
  observers : ∀ c r, Runner.ofConfig c = .ok r → r.config = c ∧
    r.observerNames = builtinNames.filter fun name => name ∉ c.observers.disabled
  /-- The registry takes all of them, one after the other. -/
  registers : ∀ c r, Runner.ofConfig c = .ok r →
    ({} : Registry).registerAll (enabledBuiltins c.observers) = .ok r.registry
  /-- A runner is refused exactly for a configuration that is not valid. -/
  refused_iff : ∀ c e, Runner.ofConfig c = .error e ↔
    ∃ cause, c.validate = .error cause ∧ e = .invalidConfig cause
  /-- Further observers are refused exactly if one has the name of a built-in observer that takes
  part. -/
  extra_refused_iff : ∀ c r extra, Runner.ofConfig c = .ok r →
    ((∃ e, r.withObservers extra = .error e) ↔
      ∃ name ∈ builtinNames, name ∉ c.observers.disabled ∧ name ∈ extra.names)
  /-- Otherwise they come after the others, in their order. -/
  extra_added : ∀ c r extra r', Runner.ofConfig c = .ok r → r.withObservers extra = .ok r' →
    r'.config = c ∧ r'.registry.entries = r.registry.entries ++ extra.entries
  checks_first : CommandLine.OptionMayFollow []
  /-- Wherever it may begin, arguments pass with it exactly if without it the program goes on to a
  session that reaches the first phase. -/
  passes_iff : ∀ before, CommandLine.OptionMayFollow before → ∀ after contentAt env,
    (∃ path, start (before ++ CommandLine.checkArgument :: after) contentAt env =
      .error (passed path)) ↔
    ∃ r, start (before ++ after) contentAt env = .ok r ∧ r.ReachesSetup
  /-- The session is executed then, and nothing else ends the program. -/
  executes : ∀ arguments (files : FileTree) env r, start arguments files.contentAt env = .ok r →
    ∀ signal runId suffix, ∃ account : Rehearsal.SessionAccount, account.runner = r ∧
      Rehearsal.rehearseProgram arguments env files signal runId suffix =
        (exitOfSession account.summary, account.progress.scene.files)

/-- Whatever is accepted when it is only checked can be started: format, observers and registry
included. -/
theorem Program.accepted_can_start : Accepts where
  formats := LogFormat.exists_ofName_iff
  loaded path content env amend c loaded := by
    have valid := Config.validate_of_load loaded
    exact ⟨(LogFormat.exists_ofName_iff _).2 (Config.logFormat_of_validate valid), _,
      Runner.ofConfig_eq_ok_iff.2 ⟨valid, rfl⟩⟩
  observers c r built := by
    obtain ⟨-, rfl⟩ := Runner.ofConfig_eq_ok_iff.1 built
    exact ⟨rfl, names_builtinRegistry c.observers⟩
  registers c r built := by
    obtain ⟨-, rfl⟩ := Runner.ofConfig_eq_ok_iff.1 built
    exact registerAll_enabledBuiltins c.observers
  refused_iff c e := Runner.ofConfig_eq_error_iff
  extra_refused_iff c r extra built := Runner.withObservers_eq_error_iff built
  extra_added c r extra r' built added := by
    obtain ⟨-, rfl⟩ := Runner.ofConfig_eq_ok_iff.1 built
    exact Runner.entries_of_withObservers added
  checks_first := CommandLine.optionMayFollow_nil
  passes_iff before begins after contentAt env := by
    rw [passes_iff begins]
    constructor
    · rintro ⟨r, started⟩
      exact ⟨r, started, r.reachesSetup⟩
    · rintro ⟨r, started, -⟩
      exact ⟨r, started⟩
  executes arguments files env r started signal runId suffix :=
    rehearse_of_start started signal runId suffix

end Vigil
