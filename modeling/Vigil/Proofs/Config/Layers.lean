import Vigil.Proofs.Config.Arguments
import Vigil.Proofs.Config.Settings

/-!
# The layers of a configuration

Every setting of a configuration has the value of the first layer that has one: the arguments, the
environment, the document, and last the default. What decides between the layers is the setting
alone, so no setting depends on what a layer says of another one. Only then is the configuration
looked at as a whole: it is loaded if it fulfils all conditions, and otherwise the first one that it
does not fulfil is named, whatever the document alone would have been worth.

The module introduces:

* `Setting.Given`, the values that arguments give a setting, and `Environment.Holds`;
* `Setting.Layered`, the value of the first layer that has one;
* `Config.conditions`, the conditions in their order, and `Layering`, what is certain of loading.
-/

namespace Vigil

open CommandLine (Gives Valued)

/-- The variable `name` is set to the octets of `text`. Of two variables with one name the first
counts. -/
def Environment.Holds (env : Environment) (name text : String) : Prop :=
  (env.find? fun e => e.1 == name).map Prod.snd = some (Text.encodeUtf8 text)

theorem Environment.text?_eq_some_iff {env : Environment} {name text : String} :
    env.text? name = some text ↔ env.Holds name text := by
  unfold text? Holds
  cases env.find? fun e => e.1 == name with
  | none => simp
  | some e => simp [Text.decodeUtf8_eq_some_iff]

namespace Setting

variable {σ τ α β : Type}

/-! ## The layers -/

/-- The arguments give a setting a value. Only four settings have an option, so for all others there
is nothing to give. -/
def Given : Setting σ α → List (List UInt8) → α → Prop
  | logLevel, arguments, a => ∃ value, Gives arguments .logLevel value ∧ value = Text.encodeUtf8 a
  | logFormat, arguments, a => ∃ value, Gives arguments .logFormat value ∧ value = Text.encodeUtf8 a
  | storageDir, arguments, a => ∃ value, Gives arguments .storageDir value ∧
      Text.decodeLenient value = a
  | workloadSecs, arguments, a => ∃ value, Gives arguments .workloadSecs value ∧
      ∃ text, value = Text.encodeUtf8 text ∧ Text.SpellsWord text a
  | _, _, _ => False

/-- What a command line says of a setting, if there is an option for it at all. -/
def inCommandLine? : Setting σ α → CommandLine → Option α
  | logLevel => CommandLine.logLevel
  | logFormat => CommandLine.logFormat
  | storageDir => CommandLine.storageDir
  | workloadSecs => CommandLine.workloadSecs
  | _ => fun _ => none

theorem held_iff {arguments : List (List UInt8)} {line : CommandLine}
    (parsed : CommandLine.parse arguments = .ok line) {o : Valued} (named : o ≠ .config)
    (Means : List UInt8 → β → Prop) {held? : CommandLine → Option β}
    (sets : ∀ value, CommandLine.Sets o value line → ∃ b, Means value b ∧ held? line = some b)
    (unset : CommandLine.Unset o line → held? line = none)
    (unique : ∀ value b b', Means value b → Means value b' → b = b') {a : β} :
    held? line = some a ↔ ∃ value, Gives arguments o value ∧ Means value a := by
  obtain ⟨given, ungiven⟩ := CommandLine.parse_gives parsed named
  constructor
  · intro held
    -- Whatever is held was set by a value that the arguments give.
    by_cases some : ∃ value, Gives arguments o value
    · obtain ⟨value, gives⟩ := some
      obtain ⟨b, means, holds⟩ := sets value (given value gives)
      cases held.symm.trans holds
      exact ⟨value, gives, means⟩
    · have nothing := unset (ungiven fun value gives => some ⟨value, gives⟩)
      cases held.symm.trans nothing
  · rintro ⟨value, gives, means⟩
    obtain ⟨b, means', holds⟩ := sets value (given value gives)
    rw [holds, unique value a b means means']

/-- What the command line says of a setting is what the arguments give it, so that `Given` needs no
look at how they were read. -/
theorem inCommandLine?_eq_some_iff (s : Setting σ α) {arguments : List (List UInt8)}
    {line : CommandLine} (parsed : CommandLine.parse arguments = .ok line) {a : α} :
    s.inCommandLine? line = some a ↔ s.Given arguments a := by
  -- No octets are those of two texts.
  have text (value : List UInt8) (b b' : String) (h : value = Text.encodeUtf8 b)
      (h' : value = Text.encodeUtf8 b') : b = b' := by
    rw [← Text.decodeUtf8_eq_some_iff] at h h'
    exact Option.some.inj (h.symm.trans h')
  cases s with
  | logLevel =>
    refine held_iff parsed (o := .logLevel) (by decide) (fun value s => value = _) ?_ id text
    rintro value ⟨s, decoded, holds⟩
    exact ⟨s, Text.decodeUtf8_eq_some_iff.1 decoded, holds⟩
  | logFormat =>
    refine held_iff parsed (o := .logFormat) (by decide) (fun value s => value = _) ?_ id text
    rintro value ⟨s, decoded, holds⟩
    exact ⟨s, Text.decodeUtf8_eq_some_iff.1 decoded, holds⟩
  | storageDir =>
    refine held_iff parsed (o := .storageDir) (by decide) (fun value path => _ = path) ?_ id ?_
    · intro value holds
      exact ⟨_, rfl, holds⟩
    · rintro value b b' rfl rfl
      rfl
  | workloadSecs =>
    refine held_iff parsed (o := .workloadSecs) (by decide)
      (fun value n => ∃ text, value = Text.encodeUtf8 text ∧ Text.SpellsWord text n)
      ?_ id ?_
    · rintro value ⟨s, n, decoded, word, holds⟩
      exact ⟨n, ⟨s, Text.decodeUtf8_eq_some_iff.1 decoded, Text.word?_eq_some_iff.1 word⟩, holds⟩
    · rintro value n n' ⟨s, same, spells⟩ ⟨s', same', spells'⟩
      cases text value s s' same same'
      rw [← Text.word?_eq_some_iff] at spells spells'
      exact Option.some.inj (spells.symm.trans spells')
  -- No option gives any of the others a value.
  | _ => exact iff_of_false nofun id

/-- What an environment says of a setting is what the text of its variable spells. -/
theorem inEnvironment?_eq_some_iff (s : Setting σ α) {env : Environment} {a : α} :
    s.inEnvironment? env = some a ↔ ∃ text, env.Holds s.variableName text ∧ s.Spells text a := by
  simp only [inEnvironment?, Option.bind_eq_some_iff, Environment.text?_eq_some_iff,
    read?_eq_some_iff]

/-- A value of the setting `s` is that of the first layer that has one: the arguments, the
environment, the document with `entries`, and then its default. -/
inductive Layered (s : Setting σ α) (entries : Toml.Entries) (env : Environment)
    (arguments : List (List UInt8)) : α → Prop
  | argument {a : α} (given : s.Given arguments a) : Layered s entries env arguments a
  /-- The variable counts only if it is set to a text that spells a value; otherwise the layers
  below decide. -/
  | environment {a : α} {text : String} (ungiven : ∀ b, ¬s.Given arguments b)
      (holds : env.Holds s.variableName text) (spells : s.Spells text a) :
      Layered s entries env arguments a
  | document {a : α} (ungiven : ∀ b, ¬s.Given arguments b)
      (unset : ∀ text, env.Holds s.variableName text → ∀ b, ¬s.Spells text b)
      (found : s.inDocument? entries = some a) : Layered s entries env arguments a
  | standard (ungiven : ∀ b, ¬s.Given arguments b)
      (unset : ∀ text, env.Holds s.variableName text → ∀ b, ¬s.Spells text b)
      (missing : s.inDocument? entries = none) : Layered s entries env arguments s.standard

/-- The layers, asked one after the other, give the value that is `Layered`. -/
theorem layered_getD (s : Setting σ α) (entries : Toml.Entries) (env : Environment)
    {arguments : List (List UInt8)} {line : CommandLine}
    (parsed : CommandLine.parse arguments = .ok line) :
    s.Layered entries env arguments ((s.inCommandLine? line).getD
      ((s.inEnvironment? env).getD ((s.inDocument? entries).getD s.standard))) := by
  cases given : s.inCommandLine? line with
  | some a => exact .argument ((s.inCommandLine?_eq_some_iff parsed).1 given)
  | none =>
    -- A layer is asked only if those above it are silent, and this has to be shown for each of
    -- them.
    have ungiven (b : α) : ¬s.Given arguments b := by
      rw [← s.inCommandLine?_eq_some_iff parsed, given]
      nofun
    cases set : s.inEnvironment? env with
    | some a =>
      obtain ⟨text, holds, spells⟩ := s.inEnvironment?_eq_some_iff.1 set
      exact .environment ungiven holds spells
    | none =>
      -- A variable may hold a text that spells nothing of the setting. It is silent then as well.
      have unset (text : String) (holds : env.Holds s.variableName text) (b : α) :
          ¬s.Spells text b := by
        intro spells
        have said := s.inEnvironment?_eq_some_iff.2 ⟨text, holds, spells⟩
        cases set.symm.trans said
      cases found : s.inDocument? entries with
      | some a => exact .document ungiven unset found
      | none => exact .standard ungiven unset found

end Setting

/-! ## The conditions -/

namespace Config

/-- A condition that a configuration must fulfil, with the error if it does not. -/
structure Condition where
  field : String
  reason : String
  Holds : Config → Prop
  [decidable : ∀ c, Decidable (Holds c)]

instance (k : Condition) (c : Config) : Decidable (k.Holds c) := k.decidable c

/-- The conditions in the order in which `Config.validate` looks at them. -/
def conditions : List Condition :=
  [{ field := "general.log_level"
     reason := "must be one of: trace, debug, info, warn, error"
     Holds := fun c => c.general.logLevel ∈ ["trace", "debug", "info", "warn", "error"] },
   { field := "general.log_format"
     reason := "must be one of: json, pretty"
     Holds := fun c => c.general.logFormat ∈ ["json", "pretty"] },
   { field := "general.storage_dir"
     reason := "storage directory must not be empty"
     Holds := fun c => Text.isBlankText c.general.storageDir = false },
   { field := "lifecycle.phase_timeout_secs"
     reason := "timeout must be greater than zero"
     Holds := fun c => 0 < c.lifecycle.phaseTimeoutSecs },
   { field := "lifecycle.cleanup_timeout_secs"
     reason := "timeout must be greater than zero"
     Holds := fun c => 0 < c.lifecycle.cleanupTimeoutSecs },
   { field := "cluster.host"
     reason := "cluster host must not be empty"
     Holds := fun c => Text.isBlankText c.cluster.host = false }]

def check (c : Config) (k : Condition) : Except Error Unit :=
  require (decide (k.Holds c)) k.field k.reason

/-- A configuration is validated by looking at `conditions` in their order. -/
theorem validate_eq (c : Config) : c.validate = conditions.forM c.check := by
  have oneOf_eq : oneOf logLevels = "must be one of: trace, debug, info, warn, error" ∧
      oneOf logFormats = "must be one of: json, pretty" := by decide
  have positive (n : Nat) : (n != 0) = decide (0 < n) := by
    cases n <;> rfl
  have one (words : List String) (s : String) : words.contains s = decide (s ∈ words) :=
    List.contains_eq_mem s words
  have other (b : Bool) : (!b) = decide (b = false) := by
    cases b <;> rfl
  -- The last condition is followed by nothing.
  have last (x : Except Error Unit) : (x >>= fun _ => pure ()) = x := bind_pure_unit
  simp only [conditions, List.forM_eq_forM, List.forM_cons, List.forM_nil, last, check]
  simp only [validate, oneOf_eq, positive, one, other]
  rfl

theorem forM_check_of_all {c : Config} {ks : List Condition} (all : ∀ k ∈ ks, k.Holds c) :
    ks.forM c.check = .ok () := by
  induction ks with
  | nil => rfl
  | cons k ks ih =>
    have first : c.check k = .ok () := by
      rw [check, decide_eq_true (all k List.mem_cons_self)]
      rfl
    show (c.check k >>= fun _ => ks.forM c.check) = _
    rw [first]
    exact ih fun k' hk' => all k' (List.mem_cons_of_mem k hk')

theorem forM_check_of_first {c : Config} {before after : List Condition} {k : Condition}
    (holds : ∀ b ∈ before, b.Holds c) (fails : ¬k.Holds c) :
    (before ++ k :: after).forM c.check = .error (.configInvalid k.field k.reason) := by
  have refused : c.check k = .error (.configInvalid k.field k.reason) := by
    rw [check, decide_eq_false fails]
    rfl
  induction before with
  | nil =>
    show (c.check k >>= fun _ => after.forM c.check) = _
    rw [refused]
    rfl
  | cons b before ih =>
    have first : c.check b = .ok () := by
      rw [check, decide_eq_true (holds b List.mem_cons_self)]
      rfl
    show (c.check b >>= fun _ => (before ++ k :: after).forM c.check) = _
    rw [first]
    exact ih fun b' hb' => holds b' (List.mem_cons_of_mem b hb')

theorem exists_first {c : Config} {ks : List Condition} (some : ¬∀ k ∈ ks, k.Holds c) :
    ∃ before k after, ks = before ++ k :: after ∧ (∀ b ∈ before, b.Holds c) ∧ ¬k.Holds c := by
  cases found : ks.find? fun k => !decide (k.Holds c) with
  | none =>
    refine absurd (fun k hk => ?_) some
    simpa using List.find?_eq_none.1 found k hk
  | some k =>
    obtain ⟨fails, before, after, cut, holds⟩ := List.find?_eq_some_iff_append.1 found
    exact ⟨before, k, after, cut, by simpa using holds, by simpa using fails⟩

/-- The configuration `c` of a document once the environment and the command line had their say. -/
def merge (c : Config) (env : Environment) (line : CommandLine) : Config :=
  line.amend (c.withEnvironment env)

/-- Of a setting the command line has the last say, and the environment the one before it. -/
theorem of_merge {σ α : Type} (s : Setting σ α) (c : Config) (env : Environment)
    (line : CommandLine) :
    s.of (c.merge env line) =
      (s.inCommandLine? line).getD ((s.inEnvironment? env).getD (s.of c)) := by
  rw [← s.of_withEnvironment env c]
  cases s <;> rfl

/-- A document that is read is merged, and then validated by `conditions`. -/
theorem load_eq {path text : String} {content : List UInt8} {c : Config}
    (decoded : content = Text.encodeUtf8 text) (parsed : parse text = .ok c) (env : Environment)
    (line : CommandLine) :
    load path (.ok content) env line.amend =
      (conditions.forM (c.merge env line).check).map fun _ => c.merge env line := by
  have read : ofContent path (.ok content) = .ok c := by
    rw [ofContent, Text.decodeUtf8_eq_some_iff.2 decoded]
    exact parsed
  rw [load, read, ← validate_eq]
  show ((c.merge env line).validate >>= fun _ => .ok (c.merge env line)) = _
  cases (c.merge env line).validate <;> rfl

end Config

/-- What is certain of the configuration that is merged from a document, an environment and
arguments, and of loading it, where `merged` is what becomes of the `file`. -/
structure Layering (entries : Toml.Entries) (file : Config) (env : Environment)
    (arguments : List (List UInt8)) (line : CommandLine)
    (load : Except Error Config) (merged : Config) : Prop where
  /-- Every setting has the value of the first layer that has one, as `Layered` says. -/
  values : ∀ {σ α : Type} (s : Setting σ α), s.Layered entries env arguments (s.of merged)
  /-- The variable of one setting is of no matter to another, whatever it is set to. -/
  variables_apart : ∀ {σ τ α β : Type} (s : Setting σ α) (t : Setting τ β) (env' : Environment),
    s.any ≠ t.any → (∀ name ≠ t.variableName, env'.text? name = env.text? name) →
      s.of (file.merge env' line) = s.of merged
  /-- The options of other settings are of no matter to a setting. -/
  options_apart : ∀ {σ α : Type} (s : Setting σ α) (line' : CommandLine),
    s.inCommandLine? line' = s.inCommandLine? line → s.of (file.merge env line') = s.of merged
  /-- The merged configuration is loaded if it fulfils all conditions, and nothing else ever is. -/
  loads_iff : ∀ c, load = .ok c ↔ c = merged ∧ ∀ k ∈ Config.conditions, k.Holds merged
  /-- Otherwise the first condition that it does not fulfil is named, and the error is that of the
  condition. -/
  refuses : ∀ before k after, Config.conditions = before ++ k :: after →
    (∀ b ∈ before, b.Holds merged) → ¬k.Holds merged →
      load = .error (.configInvalid k.field k.reason)

/-- Loading a configuration from the octets of a text that is one, with every environment and all
arguments that can be read: `Layering` of the four layers. -/
theorem config_layering {text : String} {content : List UInt8} {file : Config}
    {arguments : List (List UInt8)} {line : CommandLine}
    (decoded : content = Text.encodeUtf8 text) (parsed : Config.parse text = .ok file)
    (started : CommandLine.parse arguments = .ok line) (path : String) (env : Environment) :
    ∃ entries, Toml.parse? text = some entries ∧
      Layering entries file env arguments line (Config.load path (.ok content) env line.amend)
        (file.merge env line) := by
  obtain ⟨entries, read, filled⟩ : ∃ entries, Toml.parse? text = some entries ∧
      Toml.readEntries Config.fields {} entries = some file := by
    unfold Config.parse at parsed
    split at parsed
    · next c found =>
      cases parsed
      exact Option.bind_eq_some_iff.1 found
    · cases parsed
  -- Keys are distinct in what is read, so that a setting is found in one place only.
  have proper := Toml.proper_parse? read
  refine ⟨entries, read, ?_⟩
  rw [Config.load_eq decoded parsed]
  exact
    { values := fun s => by
        rw [Config.of_merge, s.of_readEntries proper filled]
        exact s.layered_getD entries env started
      variables_apart := fun s t env' apart same => by
        have own : s.variableName ≠ t.variableName := fun h =>
          apart (Setting.any_eq_of_variableName h)
        rw [Config.of_merge, Config.of_merge, Setting.inEnvironment?, same _ own]
        rfl
      options_apart := fun s line' same => by
        rw [Config.of_merge, Config.of_merge, same]
      loads_iff := fun c => by
        -- All conditions are checked in their order, and the first that fails is told.
        by_cases all : ∀ k ∈ Config.conditions, k.Holds (file.merge env line)
        · rw [Config.forM_check_of_all all]
          simpa [Except.map, eq_comm] using fun _ => all
        · obtain ⟨before, k, after, cut, holds, fails⟩ := Config.exists_first all
          rw [cut, Config.forM_check_of_first holds fails, ← cut]
          exact iff_of_false nofun fun h => all h.2
      refuses := fun before k after cut holds fails => by
        rw [cut, Config.forM_check_of_first holds fails]
        rfl }

/-- A document with a bad word and a good limit, an environment that mends the word and spells no
limit, and arguments that give the directory. -/
theorem config_layering_mended :
    let text := "[general]\nlog_level = \"loud\"\n[lifecycle]\nworkload_secs = 7"
    let file : Config := { general := { logLevel := "loud" }, lifecycle := { workloadSecs := 7 } }
    let env : Environment :=
      [("WATCHPOST_GENERAL_LOG_LEVEL", Text.encodeUtf8 "debug"),
       ("WATCHPOST_LIFECYCLE_WORKLOAD_SECS", Text.encodeUtf8 "-7")]
    let arguments := [[45, 45, 115, 116, 111, 114, 97, 103, 101, 45, 100, 105, 114], [47, 97]]
    let line : CommandLine := { storageDir := some "/a" }
    Config.parse text = .ok file ∧ CommandLine.parse arguments = .ok line ∧
      ∃ entries, Toml.parse? text = some entries ∧
        Layering entries file env arguments line
          (Config.load "" (.ok (Text.encodeUtf8 text)) env line.amend) (file.merge env line) := by
  intro text file env arguments line
  have parsed : Config.parse text = .ok file := by decide +kernel
  have started : CommandLine.parse arguments = .ok line := by decide +kernel
  exact ⟨parsed, started, config_layering rfl parsed started "" env⟩

end Vigil
