/-!
# Sorted dictionaries

A dictionary maps texts to values. It keeps its entries in ascending order of their keys, each key
once, so two dictionaries with the same entries are equal and are always written in the same order.
-/

namespace Vigil

/-- The entries stand in ascending order of their keys, each key once. -/
def SortedByKey {α : Type} (entries : List (String × α)) : Prop :=
  entries.Pairwise fun a b => a.1 < b.1

/-- Puts `value` under `key` into sorted entries, in place of an earlier value. -/
def insertEntry {α : Type} (key : String) (value : α) : List (String × α) → List (String × α)
  | [] => [(key, value)]
  | (k, v) :: rest =>
    if key < k then (key, value) :: (k, v) :: rest
    else if key = k then (key, value) :: rest
    else (k, v) :: insertEntry key value rest

/-- After `insertEntry` every entry is the new one or one from before. -/
theorem mem_insertEntry {α : Type} {key : String} {value : α} {entries : List (String × α)}
    {e : String × α} (h : e ∈ insertEntry key value entries) : e.1 = key ∨ e ∈ entries := by
  induction entries with
  | nil => simp [insertEntry] at h; simp [h]
  | cons a rest ih =>
    obtain ⟨k, v⟩ := a
    simp only [insertEntry] at h
    split at h
    · rcases List.mem_cons.1 h with rfl | h <;> simp [*]
    · split at h
      · rcases List.mem_cons.1 h with rfl | h <;> simp [*]
      · rcases List.mem_cons.1 h with rfl | h
        · simp
        · rcases ih h with h | h <;> simp [h]

/-- Entries that are sorted are still sorted after `insertEntry`. -/
theorem SortedByKey.insertEntry {α : Type} {key : String} {value : α}
    {entries : List (String × α)} (h : SortedByKey entries) :
    SortedByKey (insertEntry key value entries) := by
  induction entries with
  | nil => simp [Vigil.insertEntry, SortedByKey]
  | cons a rest ih =>
    obtain ⟨k, v⟩ := a
    have hcons := List.pairwise_cons.1 h
    simp only [Vigil.insertEntry]
    split
    · rename_i hlt
      refine List.pairwise_cons.2 ⟨fun e he => ?_, h⟩
      rcases List.mem_cons.1 he with rfl | he
      · exact hlt
      · exact String.lt_trans hlt (hcons.1 e he)
    · split
      · rename_i heq
        subst heq
        exact List.pairwise_cons.2 ⟨hcons.1, hcons.2⟩
      · rename_i hnlt hne
        refine List.pairwise_cons.2 ⟨fun e he => ?_, ih hcons.2⟩
        rcases mem_insertEntry he with hk | he
        · have hle : k ≤ key := String.not_lt.1 hnlt
          simp only [hk]
          exact Std.lt_of_le_of_ne hle (Ne.symm hne)
        · exact hcons.1 e he

/-- A dictionary from texts to values. It is sorted by its keys, so two dictionaries with the same
entries are equal. -/
structure Dict (α : Type) where
  entries : List (String × α)
  sorted : SortedByKey entries
  deriving DecidableEq

namespace Dict

variable {α : Type}

def empty : Dict α := ⟨[], List.Pairwise.nil⟩

instance : Inhabited (Dict α) := ⟨empty⟩

/-- Puts `value` under `key`, in place of an earlier value. -/
def insert (d : Dict α) (key : String) (value : α) : Dict α :=
  ⟨insertEntry key value d.entries, d.sorted.insertEntry⟩

/-- The value under `key`, if there is one. -/
def get? (d : Dict α) (key : String) : Option α :=
  (d.entries.find? fun e => e.1 == key).map Prod.snd

/-- The dictionary of a list of entries, in which a later entry replaces an earlier one of its
key. -/
def ofList (entries : List (String × α)) : Dict α :=
  entries.foldl (fun d e => d.insert e.1 e.2) empty

def size (d : Dict α) : Nat := d.entries.length

def keys (d : Dict α) : List String := d.entries.map Prod.fst

/-- Each key stands once among the keys of `d`. -/
theorem nodup_keys (d : Dict α) : d.keys.Nodup := by
  refine List.Pairwise.map Prod.fst (fun a b less => ?_) d.sorted
  rintro same
  rw [same] at less
  exact String.lt_irrefl _ less

/-- The value under `key` is the one that stands beside it among the entries. -/
theorem get?_eq_some_iff (d : Dict α) {key : String} {value : α} :
    d.get? key = some value ↔ (key, value) ∈ d.entries := by
  obtain ⟨entries, sorted⟩ := d
  show (entries.find? fun e => e.1 == key).map Prod.snd = some value ↔ (key, value) ∈ entries
  induction entries with
  | nil => simp
  | cons e rest ih =>
    obtain ⟨k, v⟩ := e
    obtain ⟨first, others⟩ := List.pairwise_cons.1 sorted
    by_cases own : k = key
    · -- No later entry has the key.
      have alone : (key, value) ∉ rest := fun later => String.lt_irrefl _ (own ▸ first _ later)
      simp [own, alone, eq_comm]
    · have other : key ≠ k := fun same => own same.symm
      simp [own, other, ih others]

end Dict
end Vigil
