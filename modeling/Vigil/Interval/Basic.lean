import Vigil.Dict
import Vigil.Json.Decode
import Vigil.Time.Timestamp

/-!
# Intervals

An interval is something that was seen from one instant on, and up to another one unless it is still
open. It is written as an object with its fields in a fixed order; an instant before 1970 has no
written form.
-/

namespace Vigil

namespace Timestamp

/-- The written form of the instant `t`: seconds and nanoseconds since 1970. There is none before
1970. -/
def encode? (t : Timestamp) : Option Json.Value :=
  if t.nanos < 0 then none
  else some (.object [("secs_since_epoch", .int t.secs), ("nanos_since_epoch", .nat t.subsec)])

def unwritableReason : String := "SystemTime must be later than UNIX_EPOCH"

/-- The fields of an instant as far as a document has been read, any of which may be missing. -/
structure Draft where
  secs : Option Nat := none
  nanos : Option Nat := none

/-- Reads an instant from its written form. Nanoseconds of a second and more carry over into the
seconds, which have 64 bits, and an instant has one bit less for them. -/
def decode : Json.Decoder Timestamp := fun depth text => do
  let (parts, rest) ←
    Json.record
      [.of "secs_since_epoch" (.natural 18446744073709551615) Draft.secs
          (fun d n => { d with secs := some n }),
       .of "nanos_since_epoch" (.natural 4294967295) Draft.nanos
          (fun d n => { d with nanos := some n })]
      true {}
      (fun d => do
        let secs ← d.secs
        let nanos ← d.nanos
        if secs + nanos / 1000000000 ≤ 18446744073709551615 then some (secs, nanos) else none)
      depth text
  let (secs, nanos) := parts
  if secs + nanos / 1000000000 ≤ 9223372036854775807 then .ok (ofParts secs nanos, rest)
  else .error .wrongShape

end Timestamp

def workloadCategory : String := "workload"

def nodeStateCategory : String := "node-state"

/-- Something that was seen, by whom and where, with the time for which it held. -/
structure Interval where
  start : Timestamp
  /-- When it ended; an open interval has no end. -/
  finish : Option Timestamp
  category : String
  source : String
  message : String
  annotations : Dict String
  deriving DecidableEq

namespace Interval

/-- An interval that has begun at `start` and not ended, without further texts. -/
def opened (start : Timestamp) (category source message : String) : Interval :=
  ⟨start, none, category, source, message, Dict.empty⟩

/-- An interval from `start` to `finish`, without further texts. -/
def closed (start finish : Timestamp) (category source message : String) : Interval :=
  ⟨start, some finish, category, source, message, Dict.empty⟩

/-- Adds the text `value` under the name `key`, in place of an earlier one of that name. -/
def annotate (i : Interval) (key value : String) : Interval :=
  { i with annotations := i.annotations.insert key value }

def isOpen (i : Interval) : Bool := i.finish.isNone

/-- Whether the instant `t` lies in the interval, its ends included. An open interval holds from its
start on. -/
def contains (i : Interval) (t : Timestamp) : Bool :=
  decide (i.start ≤ t) &&
    match i.finish with
    | some finish => decide (t ≤ finish)
    | none => true

def summary (i : Interval) : String :=
  "[" ++ i.category ++ "] source=" ++ i.source ++ " " ++ i.message

def textObject (d : Dict String) : Json.Value :=
  .object (d.entries.map fun e => (e.1, .string e.2))

/-- The written form of the end of an interval: `null` for an open one. There is none before
1970. -/
def encodeFinish? : Option Timestamp → Option Json.Value
  | none => some .null
  | some t => t.encode?

/-- The written form of the interval `i`. There is none if one of its ends lies before 1970. -/
def encode? (i : Interval) : Option Json.Value := do
  let start ← i.start.encode?
  let finish ← encodeFinish? i.finish
  some (.object [("from", start), ("to", finish), ("category", .string i.category),
    ("source", .string i.source), ("message", .string i.message),
    ("annotations", textObject i.annotations)])

/-- The fields of an interval as far as a document has been read. The inner option of a field is its
value, the outer one whether it was there. -/
structure Draft where
  start : Option Timestamp := none
  finish : Option (Option Timestamp) := none
  category : Option String := none
  source : Option String := none
  message : Option String := none
  annotations : Option (Dict String) := none

/-- The interval that the draft `d` describes, whose end and whose further texts may be missing. -/
def Draft.complete? (d : Draft) : Option Interval := do
  some ⟨← d.start, d.finish.getD none, ← d.category, ← d.source, ← d.message,
    d.annotations.getD Dict.empty⟩

def decode : Json.Decoder Interval :=
  Json.record
    [.of "from" Timestamp.decode Draft.start (fun d a => { d with start := some a }),
     .of "to" (.optional Timestamp.decode) Draft.finish (fun d a => { d with finish := some a }),
     .of "category" .text Draft.category (fun d a => { d with category := some a }),
     .of "source" .text Draft.source (fun d a => { d with source := some a }),
     .of "message" .text Draft.message (fun d a => { d with message := some a }),
     .of "annotations" (.dict .text) Draft.annotations
       (fun d a => { d with annotations := some a })]
    false {} Draft.complete?

end Interval
end Vigil
