import Vigil.Config.Basic
import Vigil.Toml.Document

/-!
# Configurations from documents

A section is a table, or an array of its fields in their order. What the document leaves out keeps
its default, and names that no field has are passed over as long as their values can be read.
-/

namespace Vigil

namespace Toml

/-- A field of a section of type `σ`, with the way to read it into the section. -/
structure Field (σ : Type) where
  name : String
  /-- Puts a value of the document into the field. -/
  read : Value → σ → Option σ

/-- The field `name` of a `shape`, which `set` puts into the section. -/
def Field.of {σ α : Type} (name : String) (shape : Value → Option α) (set : σ → α → σ) :
    Field σ :=
  ⟨name, fun v s => (shape v).map (set s)⟩

/-- Reads the entries of a table into the fields of their names, from `start` on. Entries that no
field has are left out. -/
def readEntries {σ : Type} (fields : List (Field σ)) (start : σ) (entries : Entries) : Option σ :=
  entries.foldlM
    (fun s (key, v) =>
      match fields.find? fun f => f.name == key with
      | some f => f.read v s
      | none => if v.isReadable then some s else none)
    start

/-- Reads values into fields in their order; there may be fewer values than fields. -/
def readItems {σ : Type} : List (Field σ) → List Value → σ → Option σ
  | _, [], s => some s
  | [], _ :: _, _ => none
  | f :: fields, v :: rest, s => do readItems fields rest (← f.read v s)

/-- Reads a section, from a table or from an array of its values. A date counts as a table without
known names. -/
def readSection {σ : Type} (fields : List (Field σ)) (start : σ) : Value → Option σ
  | .table _ entries => readEntries fields start entries
  | .array _ items => readItems fields items start
  | .moment => some start
  | _ => none

def Value.text? : Value → Option String
  | .string s => some s
  | _ => none

def Value.truth? : Value → Option Bool
  | .bool b => some b
  | _ => none

def Value.word? : Value → Option Nat
  | .integer n => if 0 ≤ n ∧ n < 18446744073709551616 then some n.toNat else none
  | _ => none

def Value.texts? : Value → Option (List String)
  | .array _ items => items.mapM Value.text?
  | _ => none

end Toml

open Toml (readSection)

def GeneralSettings.fields : List (Toml.Field GeneralSettings) :=
  [.of "log_level" (·.text?) (fun s a => { s with logLevel := a }),
   .of "log_format" (·.text?) (fun s a => { s with logFormat := a }),
   .of "storage_dir" (·.text?) (fun s a => { s with storageDir := a })]

def LifecycleSettings.fields : List (Toml.Field LifecycleSettings) :=
  [.of "phase_timeout_secs" (·.word?) (fun s a => { s with phaseTimeoutSecs := a }),
   .of "cleanup_timeout_secs" (·.word?) (fun s a => { s with cleanupTimeoutSecs := a }),
   .of "cancel_grace_secs" (·.word?) (fun s a => { s with cancelGraceSecs := a }),
   .of "workload_secs" (·.word?) (fun s a => { s with workloadSecs := a })]

def ClusterSettings.fields : List (Toml.Field ClusterSettings) :=
  [.of "host" (·.text?) (fun s a => { s with host := a }),
   .of "bearer_token" (·.text?) (fun s a => { s with bearerToken := a }),
   .of "client_certificate" (·.text?) (fun s a => { s with clientCertificate := a }),
   .of "client_key" (·.text?) (fun s a => { s with clientKey := a }),
   .of "certificate_authority" (·.text?) (fun s a => { s with certificateAuthority := a }),
   .of "insecure_skip_tls_verify" (·.truth?) (fun s a => { s with insecureSkipTlsVerify := a })]

def ObserverSettings.fields : List (Toml.Field ObserverSettings) :=
  [.of "disabled" (·.texts?) (fun s a => { s with disabled := a })]

namespace Config

/-- The sections of a configuration, each read by its own fields. -/
def fields : List (Toml.Field Config) :=
  [.of "general" (readSection GeneralSettings.fields {}) (fun s a => { s with general := a }),
   .of "lifecycle" (readSection LifecycleSettings.fields {}) (fun s a => { s with lifecycle := a }),
   .of "cluster" (readSection ClusterSettings.fields {}) (fun s a => { s with cluster := a }),
   .of "observers" (readSection ObserverSettings.fields {})
     (fun s a => { s with observers := a })]

/-- The configuration of the document `text`; a text that is none is refused. -/
def parse (text : String) : Except Error Config :=
  match (Toml.parse? text).bind (Toml.readEntries fields {}) with
  | some c => .ok c
  | none => .error (.configUnreadable "the document has no configuration")

end Config
end Vigil
