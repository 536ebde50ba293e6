import Mathlib.Data.List.Nodup
import Vigil.CommandLine
import Vigil.Config.Load
import Vigil.Proofs.Config.Spelling
import Vigil.Proofs.Config.Tables
import Vigil.Proofs.Utf8

/-!
# Settings

A configuration is made of fourteen settings. Each of them has a place in the document, a variable
in the environment, and some have an option on the command line. What a layer says of a setting
depends on nothing else in that layer, and a setting of which it says nothing stays as it was.

The module introduces:

* `Group`, a section of the configuration, and `Setting`, a setting with its section and the type of
  its values;
* `Setting.variableName` and `Setting.Spells`, its variable and the texts that the variable may
  have;
* `Setting.inDocument?`, its value in a document.
-/

namespace Vigil

/-- The sections of a configuration, each with the type `σ` of its settings. -/
inductive Group : Type → Type where
  | general : Group GeneralSettings
  | lifecycle : Group LifecycleSettings
  | cluster : Group ClusterSettings
  | observers : Group ObserverSettings

namespace Group

variable {σ : Type}

def name : Group σ → String
  | general => "general"
  | lifecycle => "lifecycle"
  | cluster => "cluster"
  | observers => "observers"

def get : Group σ → Config → σ
  | general => Config.general
  | lifecycle => Config.lifecycle
  | cluster => Config.cluster
  | observers => Config.observers

def fields : Group σ → List (Toml.Field σ)
  | general => GeneralSettings.fields
  | lifecycle => LifecycleSettings.fields
  | cluster => ClusterSettings.fields
  | observers => ObserverSettings.fields

def standard : Group σ → σ
  | general => {}
  | lifecycle => {}
  | cluster => {}
  | observers => {}

end Group

/-- The settings, each with the type of its section and that of its values, so that one statement
speaks of all of them. -/
inductive Setting : Type → Type → Type where
  | logLevel : Setting GeneralSettings String
  | logFormat : Setting GeneralSettings String
  | storageDir : Setting GeneralSettings String
  | phaseTimeoutSecs : Setting LifecycleSettings Nat
  | cleanupTimeoutSecs : Setting LifecycleSettings Nat
  | cancelGraceSecs : Setting LifecycleSettings Nat
  | workloadSecs : Setting LifecycleSettings Nat
  | host : Setting ClusterSettings String
  | bearerToken : Setting ClusterSettings String
  | clientCertificate : Setting ClusterSettings String
  | clientKey : Setting ClusterSettings String
  | certificateAuthority : Setting ClusterSettings String
  | insecureSkipTlsVerify : Setting ClusterSettings Bool
  | disabled : Setting ObserverSettings (List String)

namespace Setting

variable {σ τ α β : Type}

def group : Setting σ α → Group σ
  | logLevel | logFormat | storageDir => .general
  | phaseTimeoutSecs | cleanupTimeoutSecs | cancelGraceSecs | workloadSecs => .lifecycle
  | host | bearerToken | clientCertificate | clientKey | certificateAuthority
  | insecureSkipTlsVerify => .cluster
  | disabled => .observers

def key : Setting σ α → String
  | logLevel => "log_level"
  | logFormat => "log_format"
  | storageDir => "storage_dir"
  | phaseTimeoutSecs => "phase_timeout_secs"
  | cleanupTimeoutSecs => "cleanup_timeout_secs"
  | cancelGraceSecs => "cancel_grace_secs"
  | workloadSecs => "workload_secs"
  | host => "host"
  | bearerToken => "bearer_token"
  | clientCertificate => "client_certificate"
  | clientKey => "client_key"
  | certificateAuthority => "certificate_authority"
  | insecureSkipTlsVerify => "insecure_skip_tls_verify"
  | disabled => "disabled"

def get : Setting σ α → σ → α
  | logLevel => GeneralSettings.logLevel
  | logFormat => GeneralSettings.logFormat
  | storageDir => GeneralSettings.storageDir
  | phaseTimeoutSecs => LifecycleSettings.phaseTimeoutSecs
  | cleanupTimeoutSecs => LifecycleSettings.cleanupTimeoutSecs
  | cancelGraceSecs => LifecycleSettings.cancelGraceSecs
  | workloadSecs => LifecycleSettings.workloadSecs
  | host => ClusterSettings.host
  | bearerToken => ClusterSettings.bearerToken
  | clientCertificate => ClusterSettings.clientCertificate
  | clientKey => ClusterSettings.clientKey
  | certificateAuthority => ClusterSettings.certificateAuthority
  | insecureSkipTlsVerify => ClusterSettings.insecureSkipTlsVerify
  | disabled => ObserverSettings.disabled

/-- The value of the setting `s` in a configuration. -/
def of (s : Setting σ α) (c : Config) : α := s.get (s.group.get c)

/-- The value of the setting `s` when nobody sets it. -/
def standard (s : Setting σ α) : α := s.get s.group.standard

def put : Setting σ α → Config → α → Config
  | logLevel, c, a => { c with general.logLevel := a }
  | logFormat, c, a => { c with general.logFormat := a }
  | storageDir, c, a => { c with general.storageDir := a }
  | phaseTimeoutSecs, c, a => { c with lifecycle.phaseTimeoutSecs := a }
  | cleanupTimeoutSecs, c, a => { c with lifecycle.cleanupTimeoutSecs := a }
  | cancelGraceSecs, c, a => { c with lifecycle.cancelGraceSecs := a }
  | workloadSecs, c, a => { c with lifecycle.workloadSecs := a }
  | host, c, a => { c with cluster.host := a }
  | bearerToken, c, a => { c with cluster.bearerToken := a }
  | clientCertificate, c, a => { c with cluster.clientCertificate := a }
  | clientKey, c, a => { c with cluster.clientKey := a }
  | certificateAuthority, c, a => { c with cluster.certificateAuthority := a }
  | insecureSkipTlsVerify, c, a => { c with cluster.insecureSkipTlsVerify := a }
  | disabled, c, a => { c with observers.disabled := a }

/-- A `Setting` of any section and any value, as a member of lists of settings. -/
abbrev Any := Σ σ α : Type, Setting σ α

def any (s : Setting σ α) : Any := ⟨σ, α, s⟩

@[simp]
theorem of_put (s : Setting σ α) (c : Config) (a : α) : s.of (s.put c a) = a := by
  cases s <;> rfl

/-- Another value of one setting leaves all others as they are: settings are independent. -/
theorem of_put_of_ne {s : Setting σ α} {t : Setting τ β} (other : s.any ≠ t.any) (c : Config)
    (b : β) : s.of (t.put c b) = s.of c := by
  cases s <;> cases t <;> first | rfl | exact absurd rfl other

/-! ## The environment -/

def capitals (s : String) : String := String.ofList (s.toList.map Char.toUpper)

/-- The variable of the setting `s` is named for its section and its own name. -/
def variableName (s : Setting σ α) : String :=
  "WATCHPOST_" ++ capitals s.group.name ++ "_" ++ capitals s.key

/-- A text spells a value of a setting. Where texts are wanted every text spells itself. -/
def Spells : Setting σ α → String → α → Prop
  | logLevel | logFormat | storageDir | host | bearerToken | clientCertificate | clientKey
  | certificateAuthority => fun text a => text = a
  | phaseTimeoutSecs | cleanupTimeoutSecs | cancelGraceSecs | workloadSecs => Text.SpellsWord
  | insecureSkipTlsVerify => Text.SpellsTruth
  | disabled => Text.SpellsList

def read? : Setting σ α → String → Option α
  | logLevel | logFormat | storageDir | host | bearerToken | clientCertificate | clientKey
  | certificateAuthority => some
  | phaseTimeoutSecs | cleanupTimeoutSecs | cancelGraceSecs | workloadSecs => Text.word?
  | insecureSkipTlsVerify => Text.truth?
  | disabled => fun text => some (Text.commaList text)

/-- What `read?` makes of a text is what the text spells. -/
theorem read?_eq_some_iff {s : Setting σ α} {text : String} {a : α} :
    s.read? text = some a ↔ s.Spells text a := by
  cases s with
  | phaseTimeoutSecs | cleanupTimeoutSecs | cancelGraceSecs | workloadSecs =>
    exact Text.word?_eq_some_iff
  | insecureSkipTlsVerify => exact Text.truth?_eq_some_iff
  | disabled =>
    rw [Spells, Text.spellsList_iff]
    exact Option.some_inj
  | _ => exact Option.some_inj

def override (s : Setting σ α) : Config.Override :=
  ⟨s.variableName, fun text c =>
    match s.read? text with
    | some a => s.put c a
    | none => c⟩

def all : List Any :=
  [any logLevel, any logFormat, any storageDir, any phaseTimeoutSecs, any cleanupTimeoutSecs,
   any cancelGraceSecs, any workloadSecs, any host, any bearerToken, any certificateAuthority,
   any clientCertificate, any clientKey, any insecureSkipTlsVerify, any disabled]

theorem overrides_eq : Config.overrides = all.map fun s => s.2.2.override := rfl

theorem any_mem_all (s : Setting σ α) : s.any ∈ all := by
  cases s <;> simp [all]

theorem nodup_variableNames : (all.map fun s => s.2.2.variableName).Nodup := by
  decide

theorem any_eq_of_variableName {s : Setting σ α} {t : Setting τ β}
    (same : s.variableName = t.variableName) : s.any = t.any :=
  List.inj_on_of_nodup_map nodup_variableNames s.any_mem_all t.any_mem_all same

/-- What an environment says of the setting `s`: the variable is set to a text that spells a
value. -/
def inEnvironment? (s : Setting σ α) (env : Environment) : Option α :=
  (env.text? s.variableName).bind s.read?

/-- Lets the variable of `s` have its say on the configuration `c`. -/
def apply (env : Environment) (c : Config) (s : Any) : Config :=
  match env.text? s.2.2.variableName with
  | some text => s.2.2.override.apply text c
  | none => c

theorem of_apply (s : Setting σ α) (env : Environment) (c : Config) :
    s.of (apply env c s.any) = (s.inEnvironment? env).getD (s.of c) := by
  unfold apply inEnvironment?
  change s.of (match env.text? s.variableName with
    | some text => s.override.apply text c
    | none => c) = _
  cases env.text? s.variableName with
  | none => rfl
  | some text =>
    simp only [Option.bind_some, override]
    cases s.read? text with
    | none => rfl
    | some a => exact s.of_put c a

theorem of_apply_of_ne {s : Setting σ α} {t : Any} (other : s.any ≠ t) (env : Environment)
    (c : Config) : s.of (apply env c t) = s.of c := by
  unfold apply
  cases env.text? t.2.2.variableName with
  | none => rfl
  | some text =>
    simp only [override]
    cases t.2.2.read? text with
    | none => rfl
    | some b => exact of_put_of_ne (t := t.2.2) other c b

theorem of_foldl_apply {s : Setting σ α} {others : List Any} (none : s.any ∉ others)
    (env : Environment) (c : Config) : s.of (others.foldl (apply env) c) = s.of c := by
  induction others generalizing c with
  | nil => rfl
  | cons t others ih =>
    rw [List.mem_cons, not_or] at none
    rw [List.foldl_cons, ih none.2, of_apply_of_ne none.1]

/-- After the environment has had its say a setting has the value of its own variable, or else that
which it had. -/
theorem of_withEnvironment (s : Setting σ α) (env : Environment) (c : Config) :
    s.of (c.withEnvironment env) = (s.inEnvironment? env).getD (s.of c) := by
  have distinct : all.Nodup := List.Nodup.of_map _ nodup_variableNames
  have fold : c.withEnvironment env = all.foldl (apply env) c := by
    rw [Config.withEnvironment, overrides_eq, List.foldl_map]
    rfl
  -- The settings before it and those after it have no say.
  obtain ⟨before, after, cut⟩ := List.append_of_mem s.any_mem_all
  rw [cut, List.nodup_append, List.nodup_cons] at distinct
  obtain ⟨-, ⟨notAfter, -⟩, apart⟩ := distinct
  have notBefore : s.any ∉ before := fun h => apart _ h _ List.mem_cons_self rfl
  rw [fold, cut, List.foldl_append, List.foldl_cons, of_foldl_apply notAfter, of_apply,
    of_foldl_apply notBefore]

end Setting

/-! ## The document -/

namespace Toml

variable {σ α : Type} {name : String} {shape : Value → Option α} {get : σ → α}

/-- Of `fields` the one of that `name` fills a part of a section with values of a `shape`, and all
others leave that part alone. The part is what `get` reads. -/
def Fills (name : String) (shape : Value → Option α) (get : σ → α) (fields : List (Field σ)) :
    Prop :=
  ∀ f ∈ fields, ∀ v s s', f.read v s = some s' →
    if f.name = name then shape v = some (get s') else get s' = get s

/-- A part of a section is filled from a value of its `shape`, or left as it was if there is
none. -/
def Filled (shape : Value → Option α) : Option Value → α → α → Prop
  | some v, _, a => shape v = some a
  | none, before, a => a = before

theorem Filled.eq {found : Option Value} {before a : α} (h : Filled shape found before a) :
    a = (found.bind shape).getD before := by
  cases found with
  | none => exact h
  | some v =>
    have shaped : shape v = some a := h
    simp [shaped]

theorem Fills.nil : Fills name shape get [] := nofun

theorem Fills.own {set : σ → α → σ} {fields : List (Field σ)} (puts : ∀ s a, get (set s a) = a)
    (rest : Fills name shape get fields) : Fills name shape get (.of name shape set :: fields) := by
  intro f hf v s s' read
  rcases List.mem_cons.1 hf with rfl | later
  · obtain ⟨a, shaped, rfl⟩ := Option.map_eq_some_iff.1 read
    simp [Field.of, shaped, puts]
  · exact rest f later v s s' read

theorem Fills.other {β : Type} {other : String} {shape' : Value → Option β} {set : σ → β → σ}
    {fields : List (Field σ)} (apart : other ≠ name) (keeps : ∀ s b, get (set s b) = get s)
    (rest : Fills name shape get fields) :
    Fills name shape get (.of other shape' set :: fields) := by
  intro f hf v s s' read
  rcases List.mem_cons.1 hf with rfl | later
  · obtain ⟨b, -, rfl⟩ := Option.map_eq_some_iff.1 read
    simp [Field.of, apart, keeps]
  · exact rest f later v s s' read

theorem readEntries_cons {fields : List (Field σ)} {start s : σ} {key : String} {v : Value}
    {entries : Entries} :
    readEntries fields start ((key, v) :: entries) = some s ↔
      ∃ next, (match fields.find? fun f => f.name == key with
        | some f => f.read v start
        | none => if v.isReadable then some start else none) = some next ∧
      readEntries fields next entries = some s :=
  Option.bind_eq_some_iff

variable {fields : List (Field σ)} {start s : σ}

/-- An entry fills the part of its key, and leaves all others alone: the step of
`get_readEntries`. -/
theorem Fills.entry (fills : Fills name shape get fields) {key : String} {v : Value} {next : σ}
    (read : (match fields.find? fun f => f.name == key with
      | some f => f.read v start
      | none => if v.isReadable then some start else none) = some next) :
    (key ≠ name → get next = get start) ∧
      (key = name → name ∈ fields.map Field.name → shape v = some (get next)) := by
  split at read
  · next f found =>
    have same : f.name = key := by simpa using List.find?_some found
    have filled := fills f (List.mem_of_find?_eq_some found) v start next read
    rw [same] at filled
    refine ⟨fun other => ?_, fun own _ => ?_⟩
    · rwa [if_neg other] at filled
    · rwa [if_pos own] at filled
  · next missing =>
    refine ⟨fun _ => ?_, fun own known => ?_⟩
    · split at read
      · cases read
        rfl
      · cases read
    · -- A field has the name, so it would have been found.
      obtain ⟨f, there, named⟩ := List.mem_map.1 known
      have other : ¬(f.name == key) = true := List.find?_eq_none.1 missing f there
      exact absurd (by simp [named, own]) other

theorem readEntries_of_notMem (fills : Fills name shape get fields) {entries : Entries}
    (none : name ∉ entries.map Prod.fst) (read : readEntries fields start entries = some s) :
    get s = get start := by
  induction entries generalizing start with
  | nil =>
    cases read
    rfl
  | cons e entries ih =>
    rw [List.map_cons, List.mem_cons, not_or] at none
    obtain ⟨next, first, rest⟩ := readEntries_cons.1 read
    rw [ih none.2 rest, (fills.entry first).1 (Ne.symm none.1)]

/-- A part of a section is filled from the entry of its key, if there is one, by induction on the
entries. -/
theorem get_readEntries (fills : Fills name shape get fields)
    (known : name ∈ fields.map Field.name) {entries : Entries}
    (distinct : (entries.map Prod.fst).Nodup) (read : readEntries fields start entries = some s) :
    Filled shape (Value.lookUp entries name) (get start) (get s) := by
  induction entries generalizing start with
  | nil =>
    cases read
    exact rfl
  | cons e entries ih =>
    obtain ⟨key, v⟩ := e
    rw [List.map_cons, List.nodup_cons] at distinct
    obtain ⟨next, first, rest⟩ := readEntries_cons.1 read
    by_cases own : key = name
    · -- No later entry has the key as well, so what it holds stays as it was put in here.
      subst own
      have found : Value.lookUp ((key, v) :: entries) key = some v := by simp [Value.lookUp]
      rw [readEntries_of_notMem fills distinct.1 rest, found]
      exact (fills.entry first).2 rfl known
    · have later : Value.lookUp ((key, v) :: entries) name = Value.lookUp entries name := by
        simp [Value.lookUp, own]
      rw [later, ← (fills.entry first).1 own]
      exact ih distinct.2 rest

theorem readItems_of_notMem (fills : Fills name shape get fields)
    (none : name ∉ fields.map Field.name) {items : List Value}
    (read : readItems fields items start = some s) : get s = get start := by
  induction fields generalizing items start with
  | nil =>
    cases items with
    | nil =>
      cases read
      rfl
    | cons v items => cases read
  | cons f fields ih =>
    cases items with
    | nil =>
      cases read
      rfl
    | cons v items =>
      rw [List.map_cons, List.mem_cons, not_or] at none
      obtain ⟨next, first, rest⟩ := Option.bind_eq_some_iff.1 read
      have filled := fills f List.mem_cons_self v start next first
      rw [if_neg (Ne.symm none.1)] at filled
      rw [ih (fun g hg => fills g (List.mem_cons_of_mem f hg)) none.2 rest, filled]

/-- A part of a section is filled from the item at its place, if there is one, by induction on the
items. -/
theorem get_readItems (fills : Fills name shape get fields)
    (distinct : (fields.map Field.name).Nodup) {place : Nat}
    (known : (fields.map Field.name)[place]? = some name) {items : List Value}
    (read : readItems fields items start = some s) :
    Filled shape items[place]? (get start) (get s) := by
  induction fields generalizing items start place with
  | nil => cases known
  | cons f fields ih =>
    rw [List.map_cons, List.nodup_cons] at distinct
    have others : Fills name shape get fields := fun g hg => fills g (List.mem_cons_of_mem f hg)
    cases items with
    | nil =>
      cases read
      exact rfl
    | cons v items =>
      obtain ⟨next, first, rest⟩ := Option.bind_eq_some_iff.1 read
      have filled := fills f List.mem_cons_self v start next first
      cases place with
      | zero =>
        have own : f.name = name := Option.some.inj known
        rw [if_pos own] at filled
        -- Names are distinct, so no later item is for this part.
        rw [readItems_of_notMem others (own ▸ distinct.1) rest]
        exact filled
      | succ place =>
        have own : f.name ≠ name := by
          rintro rfl
          exact distinct.1 (List.mem_of_getElem? known)
        rw [if_neg own] at filled
        rw [← filled]
        exact ih others distinct.2 known rest

end Toml

namespace Setting

open Toml (Value readSection Fills)

variable {σ α : Type}

/-- The values of a document that a setting can have, as its own type has them. -/
def shape : Setting σ α → Value → Option α
  | logLevel | logFormat | storageDir | host | bearerToken | clientCertificate | clientKey
  | certificateAuthority => Value.text?
  | phaseTimeoutSecs | cleanupTimeoutSecs | cancelGraceSecs | workloadSecs => Value.word?
  | insecureSkipTlsVerify => Value.truth?
  | disabled => Value.texts?

def place : Setting σ α → Nat
  | logLevel | phaseTimeoutSecs | host | disabled => 0
  | logFormat | cleanupTimeoutSecs | bearerToken => 1
  | storageDir | cancelGraceSecs | clientCertificate => 2
  | workloadSecs | clientKey => 3
  | certificateAuthority => 4
  | insecureSkipTlsVerify => 5

/-- What a section says of the setting `s`: it stands under its key in a table, or at its place in
an array. -/
def inSection? (s : Setting σ α) : Value → Option α
  | .table _ entries => (Value.lookUp entries s.key).bind s.shape
  | .array _ items => items[s.place]?.bind s.shape
  | _ => none

def inDocument? (s : Setting σ α) (entries : Toml.Entries) : Option α :=
  (Value.lookUp entries s.group.name).bind s.inSection?

/-- The field of a setting fills its part of the section, and no other field does. -/
theorem fills (s : Setting σ α) : Fills s.key s.shape s.get s.group.fields := by
  cases s <;>
    repeat first
      | exact .nil
      | refine .own (fun _ _ => rfl) ?_
      | refine .other (by decide) (fun _ _ => rfl) ?_

theorem key_at_place (s : Setting σ α) :
    (s.group.fields.map Toml.Field.name)[s.place]? = some s.key := by
  cases s <;> rfl

theorem nodup_keys (s : Setting σ α) : (s.group.fields.map Toml.Field.name).Nodup := by
  cases s <;> decide

/-- A setting of a section that was read has the value that the section gives it, or else its
default. -/
theorem get_of_readSection (s : Setting σ α) {v : Value} (proper : v.Proper) {part : σ}
    (read : readSection s.group.fields s.group.standard v = some part) :
    s.get part = (s.inSection? v).getD s.standard := by
  have known : s.key ∈ s.group.fields.map Toml.Field.name := List.mem_of_getElem? s.key_at_place
  cases v with
  | table form entries =>
    exact (Toml.get_readEntries s.fills known (Toml.Entries.Proper.of_table proper).distinct
      read).eq
  | array ofTables items => exact (Toml.get_readItems s.fills s.nodup_keys s.key_at_place read).eq
  | moment =>
    cases read
    rfl
  | _ => cases read

end Setting

/-- The field of a section fills its part of the configuration, and no other field does. -/
theorem Group.fills {σ : Type} (g : Group σ) :
    Toml.Fills g.name (Toml.readSection g.fields g.standard) g.get Config.fields := by
  cases g <;>
    repeat first
      | exact .nil
      | refine .own (fun _ _ => rfl) ?_
      | refine .other (by decide) (fun _ _ => rfl) ?_

namespace Setting

variable {σ α : Type}

/-- A setting of a document's configuration has the value that the document gives it
(`inDocument?`), or else its default. -/
theorem of_readEntries (s : Setting σ α) {entries : Toml.Entries} (proper : entries.Proper)
    {c : Config} (read : Toml.readEntries Config.fields {} entries = some c) :
    s.of c = (s.inDocument? entries).getD s.standard := by
  have known : s.group.name ∈ Config.fields.map Toml.Field.name := by
    cases s.group <;> decide
  have start : s.group.get {} = s.group.standard := by
    cases s.group <;> rfl
  have filled := Toml.get_readEntries s.group.fills known proper.distinct read
  rw [start] at filled
  unfold inDocument? of
  cases found : Toml.Value.lookUp entries s.group.name with
  | none =>
    rw [found] at filled
    have kept : s.group.get c = s.group.standard := filled
    rw [kept]
    rfl
  | some v =>
    rw [found] at filled
    exact s.get_of_readSection (proper.lookUp found) filled

end Setting
end Vigil
