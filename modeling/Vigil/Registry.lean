import Vigil.Error
import Vigil.Text.Blank
import Vigil.Text.Quoted

/-!
# The registry of observers

A registry lists observers under names that are distinct and not blank, each with its owner. A
registry can take in another one as a whole.
-/

namespace Vigil

/-- The name of an observer and who answers for it. An observer takes part in a run under its
registration. -/
structure Registration where
  /-- The name, which no other observer of a registry has. -/
  name : String
  /-- Who answers for the observer. -/
  owner : String
  deriving DecidableEq, Repr, Inhabited

def Registration.debugText (r : Registration) : String :=
  "ObserverRegistration \x7b name: " ++ Text.quoted r.name ++ ", owner: " ++ Text.quoted r.owner
    ++ ", .. \x7d"

theorem nodup_names_nil : (([] : List Registration).map Registration.name).Nodup :=
  List.Pairwise.nil

theorem named_nil : ∀ e ∈ ([] : List Registration), Text.isBlankText e.name = false :=
  fun _ he => absurd he List.not_mem_nil

/-- Registered observers in the order in which they were added, which is the order of their calls. A
registry cannot be built with two observers of one name or with a blank name. -/
structure Registry where
  entries : List Registration := []
  /-- No two observers have the same name. -/
  distinct : (entries.map Registration.name).Nodup := by exact nodup_names_nil
  named : ∀ e ∈ entries, Text.isBlankText e.name = false := by exact named_nil
  deriving DecidableEq, Repr

namespace Registry

instance : Inhabited Registry := ⟨{}⟩

/-- The first observer of the name `name` in the registry `r`; there is one at most. -/
def get? (r : Registry) (name : String) : Option Registration :=
  r.entries.find? fun e => e.name == name

/-- Whether some observer of `r` has the name `name`. -/
def contains (r : Registry) (name : String) : Bool := (r.get? name).isSome

def names (r : Registry) : List String := r.entries.map Registration.name

/-- A registry `contains` exactly its names. -/
theorem contains_eq_true_iff {r : Registry} {name : String} :
    r.contains name = true ↔ name ∈ r.names := by
  simp [contains, get?, names]

/-- Names that are distinct and that `r` does not contain can be added to those of `r`, and all are
distinct again. -/
theorem nodup_append {r : Registry} {extra : List Registration}
    (distinct : (extra.map Registration.name).Nodup)
    (fresh : ∀ e ∈ extra, r.contains e.name = false) :
    ((r.entries ++ extra).map Registration.name).Nodup := by
  rw [List.map_append, List.nodup_append]
  refine ⟨r.distinct, distinct, fun name old other new same => ?_⟩
  obtain ⟨e, he, rfl⟩ := List.mem_map.1 new
  have taken : r.contains e.name = true := contains_eq_true_iff.2 (same ▸ old)
  simp [fresh e he] at taken

/-- The registry `r` with the observers `extra` after its own. Their names are not blank, distinct
and not taken in `r`. -/
def extend (r : Registry) (extra : List Registration)
    (distinct : (extra.map Registration.name).Nodup)
    (named : ∀ e ∈ extra, Text.isBlankText e.name = false)
    (fresh : ∀ e ∈ extra, r.contains e.name = false) : Registry where
  entries := r.entries ++ extra
  distinct := nodup_append distinct fresh
  named := fun e he => (List.mem_append.1 he).elim (r.named e) (named e)

/-- Adds an observer at the end of `r`, unless its name is blank or taken. -/
def register (r : Registry) (name owner : String) : Except Error Registry :=
  if blank : Text.isBlankText name then .error .emptyName
  else if taken : r.contains name then .error (.duplicateName name)
  else .ok (r.extend [⟨name, owner⟩] (by simp) (by simpa using blank) (by simpa using taken))

/-- Adds all observers of `child` at the end of `r`, unless one of their names is taken. Then the
error names the first of these, and nothing is added. -/
def compose (r child : Registry) : Except Error Registry :=
  match found : child.entries.find? fun e => r.contains e.name with
  | some e => .error (.duplicateName e.name)
  | none => .ok (r.extend child.entries child.distinct child.named (by simpa using found))

def debugText (r : Registry) : String :=
  "[" ++ String.intercalate ", " (r.names.map Text.quoted) ++ "]"

end Registry
end Vigil
