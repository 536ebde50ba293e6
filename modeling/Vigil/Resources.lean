import Vigil.Json.Decode

/-!
# Resource snapshots

A snapshot holds the objects of a cluster by their kind and, within a kind, by their key.
-/

namespace Vigil

/-- A snapshot of the objects of a cluster, by their kind and then by their key. -/
structure Resources where
  /-- For each kind the objects by key. -/
  kinds : Dict (Dict Json.Value)

namespace Resources

def empty : Resources := ⟨Dict.empty⟩

instance : Inhabited Resources := ⟨empty⟩

/-- Puts `object` under its kind and key, in place of an earlier one. -/
def insert (r : Resources) (kind key : String) (object : Json.Value) : Resources :=
  ⟨r.kinds.insert kind (((r.kinds.get? kind).getD Dict.empty).insert key object)⟩

def ofKind? (r : Resources) (kind : String) : Option (Dict Json.Value) := r.kinds.get? kind

def size (r : Resources) : Nat := (r.kinds.entries.map fun e => e.2.size).foldl Nat.add 0

def isEmpty (r : Resources) : Bool := r.size == 0

/-- How many objects there are of each kind, in ascending order of the kinds. -/
def counts (r : Resources) : List (String × Nat) := r.kinds.entries.map fun e => (e.1, e.2.size)

/-- The written form of the snapshot `r`, which is an object of objects. -/
def encode (r : Resources) : Json.Value :=
  .object (r.kinds.entries.map fun e => (e.1, .ofDict e.2))

def decode : Json.Decoder Resources := fun depth text =>
  (Json.Decoder.dict (.dict .value) depth text).map fun (d, rest) => (⟨d⟩, rest)

end Resources
end Vigil
