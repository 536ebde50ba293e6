import Vigil.Config.Basic
import Vigil.Json.Decode
import Vigil.Text.Quoted

/-!
# Access to the cluster

What an observer needs to reach the cluster. Secrets never show in diagnostics, and the facts that a
run keeps about an access say only which way of authentication it uses.
-/

namespace Vigil

/-- How to reach the cluster: an address, the credentials, and whether the server is to be
checked. -/
structure ClusterAccess where
  /-- The address of the server. -/
  host : String
  /-- The token that is shown to the server. -/
  bearerToken : Option String := none
  clientCertificate : Option String := none
  clientKey : Option String := none
  /-- The certificates of the authorities that are trusted. -/
  certificateAuthority : Option String := none
  /-- Whether the certificate of the server goes unchecked. -/
  insecureSkipTlsVerify : Bool := false
  deriving DecidableEq, Repr, Inhabited

namespace ClusterAccess

/-- A text that counts as absent when it is empty, as the fields of a configuration do. -/
def present (s : String) : Option String := if s.isEmpty then none else some s

/-- The access that the configuration `c` describes. Fields that are empty there are absent here. -/
def ofConfig (c : Config) : ClusterAccess where
  host := c.cluster.host
  bearerToken := present c.cluster.bearerToken
  clientCertificate := present c.cluster.clientCertificate
  clientKey := present c.cluster.clientKey
  certificateAuthority := present c.cluster.certificateAuthority
  insecureSkipTlsVerify := c.cluster.insecureSkipTlsVerify

/-- An optional text in diagnostics. What it says is hidden behind `mark`; only whether it is there
shows. -/
def masked (mark : String) : Option String → String
  | some _ => "Some(" ++ Text.quoted mark ++ ")"
  | none => "None"

/-- The text of an access in diagnostics, in which a mark stands in the place of every secret. -/
def debugText (a : ClusterAccess) : String :=
  "ClusterAccess \x7b host: " ++ Text.quoted a.host
    ++ ", bearer_token: " ++ masked "<redacted>" a.bearerToken
    ++ ", client_certificate: " ++ masked "<set>" a.clientCertificate
    ++ ", client_key: " ++ masked "<redacted>" a.clientKey
    ++ ", certificate_authority: " ++ masked "<set>" a.certificateAuthority
    ++ ", insecure_skip_tls_verify: " ++ (if a.insecureSkipTlsVerify then "true" else "false")
    ++ " \x7d"

/-- The written form of the access `a`, which holds the secrets as they are. -/
def encode (a : ClusterAccess) : Json.Value :=
  .object [("host", .string a.host), ("bearer_token", .optional a.bearerToken),
    ("client_certificate", .optional a.clientCertificate),
    ("client_key", .optional a.clientKey),
    ("certificate_authority", .optional a.certificateAuthority),
    ("insecure_skip_tls_verify", .bool a.insecureSkipTlsVerify)]

/-- The fields of an access as far as a document has been read. The inner option of a field is its
value, the outer one whether it was there. -/
structure Draft where
  host : Option String := none
  bearerToken : Option (Option String) := none
  clientCertificate : Option (Option String) := none
  clientKey : Option (Option String) := none
  certificateAuthority : Option (Option String) := none
  insecureSkipTlsVerify : Option Bool := none

/-- The access that the draft `d` describes. Only the address and the check of the server must have
been there. -/
def Draft.complete? (d : Draft) : Option ClusterAccess := do
  some ⟨← d.host, d.bearerToken.getD none, d.clientCertificate.getD none, d.clientKey.getD none,
    d.certificateAuthority.getD none, ← d.insecureSkipTlsVerify⟩

def decode : Json.Decoder ClusterAccess :=
  Json.record
    [.of "host" .text Draft.host (fun d a => { d with host := some a }),
     .of "bearer_token" (.optional .text) Draft.bearerToken
       (fun d a => { d with bearerToken := some a }),
     .of "client_certificate" (.optional .text) Draft.clientCertificate
       (fun d a => { d with clientCertificate := some a }),
     .of "client_key" (.optional .text) Draft.clientKey (fun d a => { d with clientKey := some a }),
     .of "certificate_authority" (.optional .text) Draft.certificateAuthority
       (fun d a => { d with certificateAuthority := some a }),
     .of "insecure_skip_tls_verify" .truth Draft.insecureSkipTlsVerify
       (fun d a => { d with insecureSkipTlsVerify := some a })]
    false {} Draft.complete?

end ClusterAccess

/-- A way to authenticate to the cluster; `ClusterAccess.authMode` says which one an access uses. -/
inductive AuthMode where
  | bearerToken
  | clientCertificate
  | anonymous
  deriving DecidableEq, Repr

/-- The name of a way to authenticate, as the summary of a run states it. -/
def AuthMode.name : AuthMode → String
  | bearerToken => "bearer_token"
  | clientCertificate => "client_certificate"
  | anonymous => "anonymous"

/-- The way to authenticate that the access `a` uses: its token counts before its certificate, and
without either the access is anonymous. -/
def ClusterAccess.authMode (a : ClusterAccess) : AuthMode :=
  if a.bearerToken.isSome then .bearerToken
  else if a.clientCertificate.isSome ∧ a.clientKey.isSome then .clientCertificate
  else .anonymous

/-- What a run keeps about an access once the access itself is gone. Nothing of it is secret. -/
structure ClusterFacts where
  apiUrl : String
  authMode : AuthMode
  /-- Whether the certificate of the server goes unchecked. -/
  insecureSkipTlsVerify : Bool
  deriving DecidableEq, Repr

/-- The facts about the access `a`. -/
def ClusterAccess.facts (a : ClusterAccess) : ClusterFacts :=
  ⟨a.host, a.authMode, a.insecureSkipTlsVerify⟩

end Vigil
