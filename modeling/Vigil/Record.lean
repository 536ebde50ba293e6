import Vigil.Json.Decode

/-!
# Result records

A record says how one check came out: it passed, it failed, or it flaked. A record names who made it
and who answers for it. Counts tally the records of a run.
-/

namespace Vigil

/-- How a check came out; a check that held only some of the time is neither passed nor failed. -/
inductive Verdict where
  | pass
  | fail
  /-- The check held only some of the time. -/
  | flake
  deriving DecidableEq, Repr, Inhabited

namespace Verdict

def name : Verdict → String
  | pass => "pass"
  | fail => "fail"
  | flake => "flake"

/-- The verdict of the name `s`, if it is the name of one. -/
def ofName? (s : String) : Option Verdict :=
  if s = "pass" then some pass else if s = "fail" then some fail
  else if s = "flake" then some flake else none

theorem ofName?_name (v : Verdict) : ofName? v.name = some v := by
  cases v <;> decide

def decode : Json.Decoder Verdict := Json.choice ofName?

end Verdict

/-- How one check came out, and to which observer and owner the result belongs. -/
structure Record where
  name : String
  /-- Who answers for the check. -/
  owner : String
  /-- The observer in whose name the record was made, which is empty until `attributedTo` fills it
  in. -/
  source : String
  /-- How the check came out. -/
  verdict : Verdict
  /-- Why it did not pass. -/
  failure : Option String
  /-- What it printed. -/
  output : Option String
  deriving DecidableEq, Repr

namespace Record

/-- A record of a check that held, attributed to nobody yet. -/
def pass (name : String) : Record := ⟨name, "", "", .pass, none, none⟩

/-- A record of a check that did not hold, with the text of its `failure`. -/
def fail (name failure : String) : Record :=
  { pass name with verdict := .fail, failure := some failure }

/-- A record of a check that held only some of the time. -/
def flake (name failure : String) : Record := { fail name failure with verdict := .flake }

/-- The record `r` with the `output` of its check. -/
def withOutput (r : Record) (output : String) : Record := { r with output := some output }

/-- The record `r` in the name of the observer `source` and of its `owner`, whoever it named
before. -/
def attributedTo (r : Record) (source owner : String) : Record := { r with source, owner }

/-- Whether the check of the record did not hold. A check that held some of the time is no
failure. -/
def isFailure (r : Record) : Bool := r.verdict == .fail

def summary (r : Record) : String :=
  r.verdict.name ++ " [" ++ r.owner ++ "] " ++ r.name ++
    match r.failure with
    | some failure => ": " ++ failure
    | none => ""

/-- The member `name` of a written object, which is left out when it has no value. -/
def optionalMember (name : String) : Option String → List (String × Json.Value)
  | some s => [(name, .string s)]
  | none => []

/-- The written form of the record `r`, with its members in a fixed order. -/
def encode (r : Record) : Json.Value :=
  .object ([("name", .string r.name), ("owner", .string r.owner), ("source", .string r.source),
    ("outcome", .string r.verdict.name)] ++ optionalMember "failure" r.failure
    ++ optionalMember "output" r.output)

/-- The fields of a record as far as a document has been read. The inner option of a field is its
value, the outer one whether it was there. -/
structure Draft where
  name : Option String := none
  owner : Option String := none
  source : Option String := none
  verdict : Option Verdict := none
  failure : Option (Option String) := none
  output : Option (Option String) := none

/-- The record that the draft `d` describes, whose source, failure and output may be missing. -/
def Draft.complete? (d : Draft) : Option Record := do
  some ⟨← d.name, ← d.owner, d.source.getD "", ← d.verdict, d.failure.getD none,
    d.output.getD none⟩

def decode : Json.Decoder Record :=
  Json.record
    [.of "name" .text Draft.name (fun d a => { d with name := some a }),
     .of "owner" .text Draft.owner (fun d a => { d with owner := some a }),
     .of "source" .text Draft.source (fun d a => { d with source := some a }),
     .of "outcome" Verdict.decode Draft.verdict (fun d a => { d with verdict := some a }),
     .of "failure" (.optional .text) Draft.failure (fun d a => { d with failure := some a }),
     .of "output" (.optional .text) Draft.output (fun d a => { d with output := some a })]
    false {} Draft.complete?

end Record

/-- How many records of a run came out each way, as its summary line tells. -/
structure Counts where
  passed : Nat := 0
  failed : Nat := 0
  /-- Checks that held only some of the time. -/
  flaked : Nat := 0
  deriving DecidableEq, Repr, Inhabited

namespace Counts

/-- The counts `c` with one more record. -/
def add (c : Counts) (r : Record) : Counts :=
  match r.verdict with
  | .pass => { c with passed := c.passed + 1 }
  | .fail => { c with failed := c.failed + 1 }
  | .flake => { c with flaked := c.flaked + 1 }

/-- The counts of a list of records. This is what a report states and what its metrics count. -/
def tally (records : List Record) : Counts := records.foldl add {}

def encode (c : Counts) : Json.Value :=
  .object [("passed", .nat c.passed), ("failed", .nat c.failed), ("flaked", .nat c.flaked)]

end Counts
end Vigil
