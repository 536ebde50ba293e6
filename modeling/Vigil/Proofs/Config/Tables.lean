import Vigil.Toml.Document

/-!
# The keys of a table

Whatever text a document is read from, no table of it has a key twice, neither the document itself
nor a table in it at any depth. So a key leads to one value, wherever in the text it was set.

The module introduces `Value.Proper` and `Entries.Proper`, and shows that every step of reading
keeps them.
-/

namespace Vigil.Toml

/-- A value in which no table has a key twice, at any depth: what `parse?` makes of a text. -/
inductive Value.Proper : Value → Prop
  | string (s : String) : Proper (.string s)
  | integer (n : Int) : Proper (.integer n)
  | float (tooLarge : Bool) : Proper (.float tooLarge)
  | bool (b : Bool) : Proper (.bool b)
  | moment : Proper .moment
  | array (ofTables : Bool) {items : List Value} (all : ∀ v ∈ items, Proper v) :
      Proper (.array ofTables items)
  | table (form : Form) {entries : List (String × Value)} (distinct : (entries.map Prod.fst).Nodup)
      (all : ∀ e ∈ entries, Proper e.2) : Proper (.table form entries)

namespace Entries

/-- The `entries` have distinct keys, and no table in them has a key twice. -/
structure Proper (entries : Entries) : Prop where
  distinct : (entries.map Prod.fst).Nodup
  values : ∀ e ∈ entries, e.2.Proper

theorem Proper.nil : Proper [] := ⟨List.nodup_nil, nofun⟩

variable {entries inner : Entries} {key : String} {v : Value}

theorem Proper.of_table {form : Form} (h : (Value.table form entries).Proper) : Proper entries := by
  cases h with
  | table _ distinct all => exact ⟨distinct, all⟩

theorem Proper.table (h : Proper entries) (form : Form) : (Value.table form entries).Proper :=
  .table form h.distinct h.values

theorem Proper.lookUp (h : Proper entries) (found : Value.lookUp entries key = some v) :
    v.Proper := by
  obtain ⟨e, there, rfl⟩ := Option.map_eq_some_iff.1 found
  exact h.values e (List.mem_of_find?_eq_some there)

/-- A value that is put under a key takes the place of the one that stands there, so keys stay
distinct. -/
theorem Proper.put (h : Proper entries) (key : String) (hv : v.Proper) :
    Proper (entries.put key v) := by
  unfold Entries.put
  split
  · refine ⟨?_, fun e he => ?_⟩
    · -- The value is replaced where it stands, and the keys stay what they are.
      have keys : (entries.map fun e => if e.1 == key then (key, v) else e).map Prod.fst =
          entries.map Prod.fst := by
        rw [List.map_map]
        refine List.map_congr_left fun e _ => ?_
        by_cases same : e.1 = key <;> simp [same]
      rw [keys]
      exact h.distinct
    · obtain ⟨e, there, rfl⟩ := List.mem_map.1 he
      split
      · exact hv
      · exact h.values e there
  · next fresh =>
    have new : key ∉ entries.map Prod.fst := by simpa using fresh
    refine ⟨?_, fun e he => ?_⟩
    · rw [List.map_append, List.map_singleton]
      refine List.nodup_append.2 ⟨h.distinct, by simp, fun a old b hb same => ?_⟩
      obtain rfl := List.mem_singleton.1 hb
      exact new (same ▸ old)
    · rcases List.mem_append.1 he with old | added
      · exact h.values e old
      · rw [List.mem_singleton.1 added]
        exact hv

/-- Setting a key by `setKey` keeps entries proper, by induction on the path. -/
theorem Proper.setKey (hv : v.Proper) {path : List String} {entries entries' : Entries}
    (h : Proper entries) (set : entries.setKey path v = some entries') : Proper entries' := by
  induction path generalizing entries entries' with
  | nil => cases set
  | cons key path ih =>
    cases path with
    | nil =>
      rw [Entries.setKey] at set
      split at set
      · cases set
      · cases set
        exact h.put key hv
    | cons next path =>
      rw [Entries.setKey] at set
      · -- The next table is missing, or dotted keys have made it, or a header implies it.
        split at set
        · obtain ⟨made, below, same⟩ := Option.bind_eq_some_iff.1 set
          cases same
          exact h.put key ((ih .nil below).table _)
        · next inner found =>
          obtain ⟨made, below, same⟩ := Option.bind_eq_some_iff.1 set
          cases same
          exact h.put key ((ih (.of_table (h.lookUp found)) below).table _)
        · next inner found =>
          split at set
          · cases set
          · obtain ⟨made, below, same⟩ := Option.bind_eq_some_iff.1 set
            cases same
            exact h.put key ((ih (.of_table (h.lookUp found)) below).table _)
        · cases set
      · nofun

/-- A change at the end of a path keeps entries proper if it keeps those at the end so. -/
theorem Proper.atPath {change : Entries → Option Entries}
    (keeps : ∀ {es es'}, Proper es → change es = some es' → Proper es')
    {path : List String} {entries entries' : Entries} (h : Proper entries)
    (changed : entries.atPath change path = some entries') : Proper entries' := by
  induction path generalizing entries entries' with
  | nil => exact keeps h changed
  | cons key path ih =>
    rw [Entries.atPath] at changed
    split at changed
    · obtain ⟨made, below, same⟩ := Option.bind_eq_some_iff.1 changed
      cases same
      exact h.put key ((ih .nil below).table _)
    · cases changed
    · next form inner _ found =>
      obtain ⟨made, below, same⟩ := Option.bind_eq_some_iff.1 changed
      cases same
      exact h.put key ((ih (.of_table (h.lookUp found)) below).table _)
    · next items found =>
      have all : ∀ v ∈ items, v.Proper := by
        have proper := h.lookUp found
        cases proper with
        | array _ all => exact all
      split at changed
      · next form inner last =>
        obtain ⟨made, below, same⟩ := Option.bind_eq_some_iff.1 changed
        cases same
        -- A path leads into the last table of an array of tables.
        have lastProper := Proper.of_table (all _ (List.mem_of_getLast? last))
        refine h.put key (.array true fun v hv => ?_)
        rcases List.mem_append.1 hv with old | new
        · exact all v (List.dropLast_subset _ old)
        · rw [List.mem_singleton.1 new]
          exact (ih lastProper below).table _
      · cases changed
    · cases changed

theorem Proper.declareTable {entries' : Entries} (h : Proper entries)
    (declared : entries.declareTable key = some entries') : Proper entries' := by
  unfold Entries.declareTable at declared
  split at declared
  · cases declared
    exact h.put key (Proper.nil.table _)
  · next inner found =>
    cases declared
    exact h.put key ((Proper.of_table (h.lookUp found)).table _)
  · cases declared

theorem Proper.declareItem {entries' : Entries} (h : Proper entries)
    (declared : entries.declareItem key = some entries') : Proper entries' := by
  have empty : (Value.table .declared []).Proper := Proper.nil.table _
  unfold Entries.declareItem at declared
  split at declared
  · cases declared
    -- The key is new: its array begins with an empty table.
    refine h.put key (.array true fun v hv => ?_)
    rw [List.mem_singleton.1 hv]
    exact empty
  · next items found =>
    cases declared
    have all : ∀ v ∈ items, v.Proper := by
      have proper := h.lookUp found
      cases proper with
      | array _ all => exact all
    refine h.put key (.array true fun v hv => ?_)
    rcases List.mem_append.1 hv with old | new
    · exact all v old
    · rw [List.mem_singleton.1 new]
      exact empty
  · cases declared

end Entries

open Entries (Proper)

/-- What holds of the parts between two brackets holds of what is read between them, if each `step`
keeps it. -/
theorem itemsInside_invariant {σ : Type} {close : Char}
    {step : σ → List Char → Option (σ × List Char)} {P : σ → Prop}
    (keeps : ∀ {state text state' rest}, P state → step state text = some (state', rest) → P state')
    {fuel : Nat} {state state' : σ} {text rest : List Char} (h : P state)
    (read : itemsInside close step fuel state text = some (state', rest)) : P state' := by
  induction fuel generalizing state text with
  | zero => cases read
  | succ fuel ih =>
    rw [itemsInside] at read
    obtain ⟨front, -, read⟩ := Option.bind_eq_some_iff.1 read
    split at read
    · cases read
    · split at read
      · cases read
        exact h
      · obtain ⟨⟨next, after⟩, stepped, read⟩ := Option.bind_eq_some_iff.1 read
        have kept := keeps h stepped
        -- The end stands behind the item, or a comma does and it goes on.
        obtain ⟨back, -, read⟩ := Option.bind_eq_some_iff.1 read
        split at read
        · cases read
        · split at read
          · cases read
            exact kept
          · split at read
            · exact ih kept read
            · cases read

theorem proper_ofWord? {word : List Char} {v : Value} (read : ofWord? word = some v) :
    v.Proper := by
  unfold ofWord? at read
  split at read
  · cases read
    exact .bool true
  · split at read
    · cases read
      exact .bool false
    · split at read
      · cases read
        exact .moment
      · split at read
        · next n _ =>
          cases read
          exact .integer n
        · obtain ⟨tooLarge, -, rfl⟩ := Option.map_eq_some_iff.1 read
          exact .float tooLarge

theorem proper_flat {text rest : List Char} {v : Value}
    (read : (anyText text).map (fun (s, rest) => (Value.string s, rest)) = some (v, rest) ∨
      (ofWord? (takeWord text).1).map (fun w => (w, (takeWord text).2)) = some (v, rest)) :
    v.Proper := by
  rcases read with read | read
  · obtain ⟨⟨s, after⟩, -, same⟩ := Option.map_eq_some_iff.1 read
    cases same
    exact .string s
  · obtain ⟨w, word, same⟩ := Option.map_eq_some_iff.1 read
    cases same
    exact proper_ofWord? word

/-- Every value that is read is proper, by induction on how deep it may nest. -/
theorem proper_value {depth : Nat} {text rest : List Char} {v : Value}
    (read : value depth text = some (v, rest)) : v.Proper := by
  induction depth generalizing text rest v with
  -- Nothing may be opened any more, so it is a value without parts.
  | zero =>
    unfold value at read
    split at read
    · cases read
    · split at read
      · exact proper_flat (.inl read)
      · split at read
        · cases read
        · split at read
          · cases read
          · exact proper_flat (.inr read)
  | succ depth ih =>
    unfold value at read
    split at read
    · cases read
    · split at read
      · exact proper_flat (.inl read)
      · split at read
        · obtain ⟨⟨found, after⟩, inside, same⟩ := Option.map_eq_some_iff.1 read
          cases same
          have all : ∀ v ∈ found, v.Proper := by
            refine itemsInside_invariant (P := fun found => ∀ v ∈ found, v.Proper) ?_ nofun inside
            intro state text state' rest kept stepped
            obtain ⟨⟨w, after⟩, item, same⟩ := Option.map_eq_some_iff.1 stepped
            cases same
            exact List.forall_mem_cons.2 ⟨ih item, kept⟩
          exact .array false fun v hv => all v (List.mem_reverse.1 hv)
        · split at read
          · obtain ⟨⟨found, after⟩, inside, same⟩ := Option.map_eq_some_iff.1 read
            cases same
            -- The members of an inline table are set one after the other, beginning with none.
            refine Proper.table ?_ _
            refine itemsInside_invariant (P := Proper) ?_ .nil inside
            intro state text state' rest kept stepped
            split at stepped
            · split at stepped
              · next w after item =>
                obtain ⟨entries, set, same⟩ := Option.map_eq_some_iff.1 stepped
                cases same
                exact kept.setKey (ih item) set
              · cases stepped
            · cases stepped
          · exact proper_flat (.inr read)

/-- Every line keeps a draft proper, whether it opens a table or sets a key. -/
theorem Draft.proper_add {d d' : Draft} {l : Line} (h : Proper d.entries)
    (hl : ∀ path v, l = .setting path v → v.Proper) (added : d.add l = some d') :
    Proper d'.entries := by
  cases l with
  | setting path v =>
    obtain ⟨entries, changed, same⟩ := Option.bind_eq_some_iff.1 added
    cases same
    exact h.atPath (fun hes set => hes.setKey (hl path v rfl) set) changed
  | header path =>
    obtain ⟨key, -, added⟩ := Option.bind_eq_some_iff.1 added
    obtain ⟨entries, changed, same⟩ := Option.bind_eq_some_iff.1 added
    cases same
    exact h.atPath (fun hes declared => hes.declareTable declared) changed
  | itemHeader path =>
    obtain ⟨key, -, added⟩ := Option.bind_eq_some_iff.1 added
    obtain ⟨entries, changed, same⟩ := Option.bind_eq_some_iff.1 added
    cases same
    exact h.atPath (fun hes declared => hes.declareItem declared) changed

theorem proper_line {text rest : List Char} {path : List String} {v : Value}
    (read : line text = some (.setting path v, rest)) : v.Proper := by
  unfold line at read
  split at read
  · obtain ⟨_, -, same⟩ := Option.map_eq_some_iff.1 read
    cases same
  · obtain ⟨_, -, same⟩ := Option.map_eq_some_iff.1 read
    cases same
  · split at read
    · obtain ⟨⟨w, after⟩, read, same⟩ := Option.map_eq_some_iff.1 read
      cases same
      exact proper_value read
    · cases read

/-- Reading lines keeps a draft proper, by induction on the fuel of `lines`. -/
theorem Draft.proper_lines {fuel : Nat} {d d' : Draft} {text : List Char} (h : Proper d.entries)
    (read : lines fuel d text = some d') : Proper d'.entries := by
  induction fuel generalizing d text with
  | zero => cases read
  | succ fuel ih =>
    rw [lines] at read
    split at read
    · cases read
      exact h
    · split at read
      · obtain ⟨after, -, read⟩ := Option.bind_eq_some_iff.1 read
        exact ih h read
      · obtain ⟨⟨l, after⟩, first, read⟩ := Option.bind_eq_some_iff.1 read
        obtain ⟨next, added, read⟩ := Option.bind_eq_some_iff.1 read
        obtain ⟨after, -, read⟩ := Option.bind_eq_some_iff.1 read
        refine ih (Draft.proper_add h ?_ added) read
        rintro path v rfl
        exact proper_line first

/-- No table of a document has a key twice, so that a setting has one value in it at most. -/
theorem proper_parse? {text : String} {entries : Entries} (read : parse? text = some entries) :
    Proper entries := by
  obtain ⟨d, drafted, rfl⟩ := Option.map_eq_some_iff.1 read
  exact Draft.proper_lines .nil drafted

end Vigil.Toml
