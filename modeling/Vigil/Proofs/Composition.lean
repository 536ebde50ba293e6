import Vigil.Proofs.PhaseTrace

/-!
# Putting registries together

Registries are filled by registering observers one at a time and by taking in other registries as a
whole. Whatever is tried, in whatever order and however often it fails, a registry has distinct
names that are not blank, and a failure leaves it as it was. Hence a tree of registries can be put
together exactly if all its names are distinct, and how it is nested is of no matter: what comes out
is the list of its entries from left to right, and this list is what a run visits.

The module introduces:

* `Roster`, a registry with the observers behind its entries;
* `Table`, any number of rosters, `Op`, what can be tried with them, and `Lawful`, the laws of both;
* `Tree`, a roster that is put together from others, with its `flat` list of entries;
* `Roster.visited`, the entries that a run visits in a phase, and `Composes`, what is certain of a
  tree.
-/

namespace Vigil

namespace Registry

variable {r r' child : Registry} {name owner : String}

theorem register_of_blank (blank : Text.isBlankText name = true) :
    r.register name owner = .error .emptyName := by
  simp [register, blank]

theorem register_of_taken (named : Text.isBlankText name = false) (taken : name ∈ r.names) :
    r.register name owner = .error (.duplicateName name) := by
  simp [register, named, contains_eq_true_iff.2 taken]

theorem exists_register (owner : String) (named : Text.isBlankText name = false)
    (free : name ∉ r.names) : ∃ r', r.register name owner = .ok r' := by
  have untaken : r.contains name = false := by
    rw [← Bool.not_eq_true, contains_eq_true_iff]
    exact free
  simp [register, named, untaken]

theorem entries_of_register (added : r.register name owner = .ok r') :
    r'.entries = r.entries ++ [⟨name, owner⟩] := by
  unfold register at added
  split at added
  · cases added
  · split at added
    · cases added
    · cases added
      rfl

/-- The first entry `c` of another registry whose name is taken is the one that is in the way: the
error names it. -/
theorem compose_of_collision {before after : List Registration} {c : Registration}
    (cut : child.entries = before ++ c :: after) (taken : c.name ∈ r.names)
    (first : ∀ b ∈ before, b.name ∉ r.names) :
    r.compose child = .error (.duplicateName c.name) := by
  have found : child.entries.find? (fun e => r.contains e.name) = some c := by
    rw [List.find?_eq_some_iff_append]
    refine ⟨contains_eq_true_iff.2 taken, before, after, cut, fun b hb => ?_⟩
    rw [Bool.not_eq_true', ← Bool.not_eq_true, contains_eq_true_iff]
    exact first b hb
  unfold compose
  split
  · next e he =>
    cases found.symm.trans he
    rfl
  · next he => cases found.symm.trans he

/-- A registry none of whose names is taken can be taken in by `Registry.compose`. -/
theorem exists_compose (free : ∀ name ∈ child.names, name ∉ r.names) :
    ∃ r', r.compose child = .ok r' := by
  have none : child.entries.find? (fun e => r.contains e.name) = none := by
    rw [List.find?_eq_none]
    intro e he taken
    exact free e.name (List.mem_map_of_mem he) (contains_eq_true_iff.1 taken)
  unfold compose
  split <;> simp_all

theorem entries_of_compose (added : r.compose child = .ok r') :
    r'.entries = r.entries ++ child.entries := by
  unfold compose at added
  split at added
  · cases added
  · cases added
    rfl

theorem free_or_collision (r child : Registry) :
    (∀ name ∈ child.names, name ∉ r.names) ∨
    ∃ before c after, child.entries = before ++ c :: after ∧ c.name ∈ r.names ∧
      ∀ b ∈ before, b.name ∉ r.names := by
  cases found : child.entries.find? fun e => decide (e.name ∈ r.names) with
  | none =>
    refine .inl fun name hname => ?_
    obtain ⟨e, he, rfl⟩ := List.mem_map.1 hname
    simpa using List.find?_eq_none.1 found e he
  | some c =>
    obtain ⟨taken, before, after, cut, first⟩ := List.find?_eq_some_iff_append.1 found
    exact .inr ⟨before, c, after, cut, by simpa using taken, by simpa using first⟩

end Registry

/-! ## Rosters -/

/-- A `Registry` with the observers behind its entries: what `register` and `compose` do to the
names alone they do here to the pairs, so that a lost or exchanged observer shows. -/
structure Roster (ι : Type) where
  registry : Registry := {}
  /-- The observers, in the order of the entries. -/
  observers : List ι := []
  /-- Each entry has its observer. -/
  length_observers : observers.length = registry.entries.length := by rfl

namespace Roster

variable {ι : Type} {r r' child : Roster ι} {name owner : String} {observer : ι}

/-- The entries of the roster `r`, each with its observer. -/
def entries (r : Roster ι) : List (Registration × ι) := r.registry.entries.zip r.observers

def names (r : Roster ι) : List String := r.registry.names

@[simp]
theorem map_fst_entries (r : Roster ι) : r.entries.map Prod.fst = r.registry.entries :=
  List.map_fst_zip (Nat.le_of_eq r.length_observers.symm)

@[simp]
theorem map_snd_entries (r : Roster ι) : r.entries.map Prod.snd = r.observers :=
  List.map_snd_zip (Nat.le_of_eq r.length_observers)

theorem names_eq (r : Roster ι) : r.names = r.entries.map fun e => e.1.name := by
  rw [names, Registry.names, ← map_fst_entries, List.map_map]
  rfl

theorem eq_of_entries (same : r.entries = r'.entries) : r = r' := by
  have registrations := congrArg (List.map Prod.fst) same
  have observers := congrArg (List.map Prod.snd) same
  rw [map_fst_entries, map_fst_entries] at registrations
  rw [map_snd_entries, map_snd_entries] at observers
  rcases r with ⟨⟨entries, _, _⟩, list, _⟩
  rcases r' with ⟨⟨entries', _, _⟩, list', _⟩
  cases registrations
  cases observers
  rfl

/-- Adds an observer under `name`. Neither the observer nor its `owner` is looked at. -/
def register (r : Roster ι) (name owner : String) (observer : ι) : Except Error (Roster ι) :=
  match added : r.registry.register name owner with
  | .error e => .error e
  | .ok registry => .ok
      { registry
        observers := r.observers ++ [observer]
        length_observers := by
          simp [Registry.entries_of_register added, r.length_observers] }

/-- Takes in the roster `child`, if none of its names is taken. -/
def compose (r child : Roster ι) : Except Error (Roster ι) :=
  match added : r.registry.compose child.registry with
  | .error e => .error e
  | .ok registry => .ok
      { registry
        observers := r.observers ++ child.observers
        length_observers := by
          simp [Registry.entries_of_compose added, r.length_observers, child.length_observers] }

/-- Registering an observer fails on its name alone, blank or else taken, and otherwise puts it at
the end. -/
theorem register_cases (r : Roster ι) (name owner : String) (observer : ι) :
    Text.isBlankText name = true ∧ r.register name owner observer = .error .emptyName ∨
    Text.isBlankText name = false ∧ name ∈ r.names ∧
      r.register name owner observer = .error (.duplicateName name) ∨
    Text.isBlankText name = false ∧ name ∉ r.names ∧
      ∃ r', r.register name owner observer = .ok r' ∧
        r'.entries = r.entries ++ [(⟨name, owner⟩, observer)] := by
  -- A refusal is one of the names, whatever the observer.
  have errors {e : Error} (refused : r.registry.register name owner = .error e) :
      r.register name owner observer = .error e := by
    unfold register
    split <;> simp_all
  cases blank : Text.isBlankText name with
  | true => exact .inl ⟨rfl, errors (Registry.register_of_blank blank)⟩
  | false =>
    by_cases taken : name ∈ r.names
    · exact .inr (.inl ⟨rfl, taken, errors (Registry.register_of_taken blank taken)⟩)
    · -- Entries and observers grow by one at once, so they still go together.
      obtain ⟨registry, added⟩ := Registry.exists_register owner blank taken
      refine .inr (.inr ⟨rfl, taken, ?_⟩)
      have entries := Registry.entries_of_register added
      refine ⟨⟨registry, r.observers ++ [observer], by simp [entries, r.length_observers]⟩, ?_, ?_⟩
      · unfold register
        split <;> simp_all
      · change registry.entries.zip (r.observers ++ [observer]) = _
        rw [entries, List.zip_append r.length_observers.symm]
        rfl

/-- Taking in a roster fails on its first name that is taken, and otherwise puts all of it at the
end. -/
theorem compose_cases (r child : Roster ι) :
    (∃ before c after, child.registry.entries = before ++ c :: after ∧ c.name ∈ r.names ∧
      (∀ b ∈ before, b.name ∉ r.names) ∧ r.compose child = .error (.duplicateName c.name)) ∨
    (∀ name ∈ child.names, name ∉ r.names) ∧
      ∃ r', r.compose child = .ok r' ∧ r'.entries = r.entries ++ child.entries := by
  rcases Registry.free_or_collision r.registry child.registry with
    free | ⟨before, c, after, cut, taken, first⟩
  · obtain ⟨registry, added⟩ := Registry.exists_compose free
    have entries := Registry.entries_of_compose added
    refine .inr ⟨free, ⟨registry, r.observers ++ child.observers,
      by simp [entries, r.length_observers, child.length_observers]⟩, ?_, ?_⟩
    · unfold compose
      split <;> simp_all
    · change registry.entries.zip (r.observers ++ child.observers) = _
      rw [entries, List.zip_append r.length_observers.symm]
      rfl
  · refine .inl ⟨before, c, after, cut, taken, first, ?_⟩
    have refused := Registry.compose_of_collision cut taken first
    unfold compose
    split <;> simp_all

end Roster

/-! ## Operations on any number of rosters -/

/-- Any number of rosters, by their numbers. Those that nothing was done with are empty. -/
abbrev Table (ι : Type) := Nat → Roster ι

/-- What can be tried with the rosters of a table: to register an observer, or to take one roster in
by another. -/
inductive Op (ι : Type) where
  | register (into : Nat) (name owner : String) (observer : ι)
  /-- One roster is to take in another, which is used up. -/
  | compose (into child : Nat)

namespace Op

variable {ι : Type}

def into : Op ι → Nat
  | register into .. => into
  | compose into _ => into

/-- The table without the roster that is to be taken in, which is moved out of it in either case. -/
def left (t : Table ι) : Op ι → Table ι
  | register .. => t
  | compose _ child => Function.update t child {}

def added (t : Table ι) : Op ι → List (Registration × ι)
  | register _ name owner observer => [(⟨name, owner⟩, observer)]
  | compose _ child => (t child).entries

/-- What becomes of the roster that is to grow, or the error that keeps it from growing. -/
def grown (t : Table ι) : Op ι → Except Error (Roster ι)
  | register into name owner observer => (t into).register name owner observer
  | compose into child => ((Function.update t child {}) into).compose (t child)

end Op

namespace Table

variable {ι : Type}

/-- Tries the operation `op` on the table `t`: the answer, and the table after it. -/
def apply (t : Table ι) (op : Op ι) : Except Error Unit × Table ι :=
  match op.grown t with
  | .ok r => (.ok (), Function.update (op.left t) op.into r)
  | .error e => (.error e, op.left t)

/-- The table after all of `ops`, whether they fail or not. -/
def after (t : Table ι) (ops : List (Op ι)) : Table ι := ops.foldl (fun t op => (t.apply op).2) t

theorem apply_of_error {t : Table ι} {op : Op ι} {e : Error} (refused : op.grown t = .error e) :
    t.apply op = (.error e, op.left t) := by
  rw [apply, refused]

theorem apply_of_ok {t : Table ι} {op : Op ι} {r : Roster ι} (grown : op.grown t = .ok r) :
    t.apply op = (.ok (), Function.update (op.left t) op.into r) := by
  rw [apply, grown]

theorem apply_eq_error_iff {t : Table ι} {op : Op ι} {e : Error} :
    (t.apply op).1 = .error e ↔ op.grown t = .error e := by
  cases grown : op.grown t with
  | error e' => simp [apply_of_error grown]
  | ok r => simp [apply_of_ok grown]

/-- When an operation succeeds its roster has grown by just what was to be `added`. -/
theorem exists_grown {t : Table ι} {op : Op ι} (done : (t.apply op).1 = .ok ()) :
    ∃ r, (t.apply op).2 = Function.update (op.left t) op.into r ∧
      r.entries = (op.left t op.into).entries ++ op.added t := by
  cases grown : op.grown t with
  | error e => simp [apply_of_error grown] at done
  | ok r =>
    refine ⟨r, by rw [apply_of_ok grown], ?_⟩
    cases op with
    | register into name owner observer =>
      -- The cases that refuse are none of the operation, which is done.
      rcases (t into).register_cases name owner observer with
        ⟨-, refused⟩ | ⟨-, -, refused⟩ | ⟨-, -, r', added, entries⟩
      · cases refused.symm.trans grown
      · cases refused.symm.trans grown
      · cases added.symm.trans grown
        exact entries
    | compose into child =>
      rcases ((Op.compose into child).left t into).compose_cases (t child) with
        ⟨_, _, _, -, -, -, refused⟩ | ⟨-, r', added, entries⟩
      · cases refused.symm.trans grown
      · cases added.symm.trans grown
        exact entries

/-- The roster `child` is taken in by the roster `i`, or else by what is left of itself, which is
nothing. -/
theorem compose_cases (t : Table ι) (i child : Nat) :
    (i ≠ child ∧ ∃ before c after, (t child).registry.entries = before ++ c :: after ∧
      c.name ∈ (t i).names ∧ (∀ b ∈ before, b.name ∉ (t i).names) ∧
      (t.apply (.compose i child)).1 = .error (.duplicateName c.name)) ∨
    ((i ≠ child → ∀ name ∈ (t child).names, name ∉ (t i).names) ∧
      (t.apply (.compose i child)).1 = .ok ()) := by
  have grown : (Op.compose i child).grown t =
      (Function.update t child {} i).compose (t child) := rfl
  by_cases same : i = child
  · subst same
    rw [Function.update_self] at grown
    -- An empty roster has no name that could be in the way.
    rcases ({} : Roster ι).compose_cases (t i) with ⟨_, _, _, -, taken, -⟩ | ⟨-, r, added, -⟩
    · cases taken
    · refine .inr ⟨fun other => absurd rfl other, ?_⟩
      rw [apply_of_ok (grown.trans added)]
  · rw [Function.update_of_ne same] at grown
    rcases (t i).compose_cases (t child) with
      ⟨before, c, after, cut, taken, first, refused⟩ | ⟨free, r, added, -⟩
    · refine .inl ⟨same, before, c, after, cut, taken, first, ?_⟩
      rw [apply_of_error (grown.trans refused)]
    · refine .inr ⟨fun _ => free, ?_⟩
      rw [apply_of_ok (grown.trans added)]

end Table

/-- The laws of the table `t` under whatever is tried with it next; that they hold of `Table.after`
makes them invariants of every sequence of operations. -/
structure Lawful {ι : Type} (t : Table ι) : Prop where
  distinct : ∀ i, (t i).names.Nodup
  /-- None of them is blank. -/
  named : ∀ i, ∀ name ∈ (t i).names, Text.isBlankText name = false
  /-- An observer is refused exactly under a name that is blank, or else that is taken, whoever the
  observer and its owner are. -/
  register_refused_iff : ∀ i name owner observer e,
    (t.apply (.register i name owner observer)).1 = .error e ↔
      Text.isBlankText name = true ∧ e = .emptyName ∨
      Text.isBlankText name = false ∧ name ∈ (t i).names ∧ e = .duplicateName name
  /-- A roster can be taken in unless one of its names is taken; no blank or other name is in the
  way. -/
  compose_fails_iff : ∀ i child,
    (∃ e, (t.apply (.compose i child)).1 = .error e) ↔
      i ≠ child ∧ ∃ name ∈ (t child).names, name ∈ (t i).names
  /-- The error names the first of its entries whose name is taken. -/
  compose_refused : ∀ i child e, (t.apply (.compose i child)).1 = .error e →
    ∃ before c after, (t child).registry.entries = before ++ c :: after ∧
      c.name ∈ (t i).names ∧ (∀ b ∈ before, b.name ∉ (t i).names) ∧ e = .duplicateName c.name
  /-- After a failure the roster that was to grow is what it was, and so is every other, but for the
  one that is used up. -/
  failed : ∀ op e, (t.apply op).1 = .error e →
    (t.apply op).2 op.into = t op.into ∧ (t.apply op).2 = op.left t
  /-- Otherwise the new entries come after those that were there, and no other roster changes. -/
  succeeded : ∀ op, (t.apply op).1 = .ok () →
    ((t.apply op).2 op.into).entries = (op.left t op.into).entries ++ op.added t ∧
    ∀ i, i ≠ op.into → (t.apply op).2 i = op.left t i

theorem Table.lawful {ι : Type} (t : Table ι) : Lawful t where
  distinct i := (t i).registry.distinct
  named i name hname := by
    obtain ⟨e, he, rfl⟩ := List.mem_map.1 hname
    exact (t i).registry.named e he
  register_refused_iff i name owner observer e := by
    rw [apply_eq_error_iff, Op.grown]
    rcases (t i).register_cases name owner observer with
      ⟨blank, refused⟩ | ⟨named, taken, refused⟩ | ⟨named, free, r, added, -⟩
    · simp [refused, blank, eq_comm]
    · simp [refused, named, taken, eq_comm]
    · simp [added, named, free]
  compose_fails_iff i child := by
    rcases t.compose_cases i child with
      ⟨other, before, c, after, cut, taken, -, refused⟩ | ⟨free, done⟩
    · -- The entry that was refused is one of the names that both have.
      have there : c.name ∈ (t child).names := by
        rw [Roster.names, Registry.names, cut]
        simp
      exact ⟨fun _ => ⟨other, c.name, there, taken⟩, fun _ => ⟨_, refused⟩⟩
    · rw [done]
      constructor
      · rintro ⟨e, ⟨⟩⟩
      · rintro ⟨other, name, there, taken⟩
        exact absurd taken (free other name there)
  compose_refused i child e refused := by
    rcases t.compose_cases i child with
      ⟨-, before, c, after, cut, taken, first, duplicate⟩ | ⟨-, done⟩
    · refine ⟨before, c, after, cut, taken, first, ?_⟩
      cases duplicate.symm.trans refused
      rfl
    · cases done.symm.trans refused
  failed op e refused := by
    -- A failure leaves all rosters but the one that was to be taken in, which is used up.
    have rest : (t.apply op).2 = op.left t := by
      rw [apply_of_error (apply_eq_error_iff.1 refused)]
    refine ⟨?_, rest⟩
    rw [rest]
    cases op with
    | register => rfl
    | compose i child =>
      rcases t.compose_cases i child with ⟨other, -⟩ | ⟨-, done⟩
      · exact Function.update_of_ne other _ _
      · cases done.symm.trans refused
  succeeded op done := by
    obtain ⟨r, grown, entries⟩ := exists_grown done
    rw [grown]
    refine ⟨?_, fun i other => ?_⟩
    · rw [Function.update_self]
      exact entries
    · rw [Function.update_of_ne other]

/-! ## Trees of rosters -/

/-- A tree of rosters and single observers: how a whole roster is put together from parts, and in
which order. -/
inductive Tree (ι : Type) where
  | leaf (r : Roster ι)
  /-- Another observer is registered in what a tree comes to. -/
  | register (t : Tree ι) (e : Registration) (observer : ι)
    (named : Text.isBlankText e.name = false)
  /-- What a tree comes to takes in what another one does. -/
  | compose (t child : Tree ι)

namespace Tree

variable {ι : Type}

/-- Puts the tree together, the smaller trees first, or stops at the first error. -/
def build : Tree ι → Except Error (Roster ι)
  | leaf r => .ok r
  | register t e observer _ => do (← t.build).register e.name e.owner observer
  | compose t child => do (← t.build).compose (← child.build)

/-- The entries of the tree from left to right, however it is nested, each with its observer. -/
def flat : Tree ι → List (Registration × ι)
  | leaf r => r.entries
  | register t e observer _ => t.flat ++ [(e, observer)]
  | compose t child => t.flat ++ child.flat

def names (t : Tree ι) : List String := t.flat.map fun e => e.1.name

/-- What a tree may come to: a roster with the entries of `flat`, or an error with one of its names
that is there twice. -/
def Comes (t : Tree ι) : Except Error (Roster ι) → Prop
  | .ok r => r.entries = t.flat
  | .error e => ∃ name, e = .duplicateName name ∧ 2 ≤ t.names.count name

theorem names_of_comes {t : Tree ι} {r : Roster ι} (comes : t.Comes (.ok r)) :
    r.names = t.names := by
  have entries : r.entries = t.flat := comes
  rw [Roster.names_eq, entries, names]

theorem comes_register {t : Tree ι} {r : Roster ι} (comes : t.Comes (.ok r)) (e : Registration)
    (observer : ι) (named : Text.isBlankText e.name = false) :
    (t.register e observer named).Comes (r.register e.name e.owner observer) := by
  have names := names_of_comes comes
  rcases r.register_cases e.name e.owner observer with
    ⟨blank, -⟩ | ⟨-, taken, refused⟩ | ⟨-, -, r', added, entries⟩
  · cases named.symm.trans blank
  · rw [refused]
    refine ⟨e.name, rfl, ?_⟩
    -- Once it is in the tree and once it is the new name.
    have before : 1 ≤ t.names.count e.name := List.one_le_count_iff.2 (names ▸ taken)
    have both : (t.register e observer named).names = t.names ++ [e.name] := by
      simp [Tree.names, flat]
    rw [both, List.count_append, List.count_singleton_self]
    exact Nat.add_le_add before (Nat.le_refl 1)
  · rw [added]
    have same : r.entries = t.flat := comes
    show r'.entries = t.flat ++ [(e, observer)]
    rw [entries, same]

theorem comes_compose {t child : Tree ι} {r c : Roster ι} (comes : t.Comes (.ok r))
    (childComes : child.Comes (.ok c)) : (t.compose child).Comes (r.compose c) := by
  have names := names_of_comes comes
  have childNames := names_of_comes childComes
  rcases r.compose_cases c with
    ⟨before, e, after, cut, taken, -, refused⟩ | ⟨-, r', added, entries⟩
  · rw [refused]
    refine ⟨e.name, rfl, ?_⟩
    -- The name that is refused counts once in each of the two trees.
    have there : e.name ∈ c.names := by
      rw [Roster.names, Registry.names, cut]
      simp
    have first : 1 ≤ t.names.count e.name := List.one_le_count_iff.2 (names ▸ taken)
    have second : 1 ≤ child.names.count e.name := List.one_le_count_iff.2 (childNames ▸ there)
    have both : (t.compose child).names = t.names ++ child.names := by
      simp [Tree.names, flat]
    rw [both, List.count_append]
    exact Nat.add_le_add first second
  · rw [added]
    have same : r.entries = t.flat := comes
    have childSame : c.entries = child.flat := childComes
    show r'.entries = t.flat ++ child.flat
    rw [entries, same, childSame]

/-- A name that is in a part of a tree twice is in the whole tree twice, so the error of a part is
one of the whole. -/
theorem Comes.error_of_sublist {t whole : Tree ι} {e : Error} (comes : t.Comes (.error e))
    (part : List.Sublist t.names whole.names) : whole.Comes (.error e) := by
  obtain ⟨name, same, twice⟩ := comes
  exact ⟨name, same, Nat.le_trans twice (part.count_le name)⟩

/-- What `build` makes of a tree is what `Comes` says, by induction on the tree. -/
theorem comes_build (t : Tree ι) : t.Comes t.build := by
  induction t with
  | leaf r => exact rfl
  | register t e observer named ih =>
    rw [build]
    cases built : t.build with
    | error failure =>
      rw [built] at ih
      -- The tree is not put together any further, and its names stay in the whole tree.
      refine ih.error_of_sublist ?_
      simp [Tree.names, flat]
    | ok r =>
      rw [built] at ih
      exact comes_register ih e observer named
  | compose t child ih childIh =>
    rw [build]
    cases built : t.build with
    | error failure =>
      rw [built] at ih
      refine ih.error_of_sublist ?_
      simp [Tree.names, flat]
    | ok r =>
      rw [built] at ih
      cases childBuilt : child.build with
      | error failure =>
        rw [childBuilt] at childIh
        refine childIh.error_of_sublist ?_
        simp [Tree.names, flat]
      | ok c =>
        rw [childBuilt] at childIh
        exact comes_compose ih childIh

end Tree

/-! ## What a run visits -/

open Schedule (Run Due trace)

namespace Roster

variable {ι : Type}

/-- The entries that `run` visits in `phase`, with `r` as its roster. A call is made on the observer
that stands where its entry does. -/
def visited (r : Roster ι) (run : Run) (phase : Phase) : List (Registration × ι) :=
  (run.world.calls.filter fun c => c.1 == phase).flatMap fun c => c.2.zip r.observers

theorem filter_working (observers : List Registration) (count : Nat) (phase : Phase) :
    ((Phase.working.take count).map fun p => (p, observers)).filter (fun c => c.1 == phase) =
      if phase ∈ Phase.working.take count then [(phase, observers)] else [] := by
  have distinct : (Phase.working.take count).Nodup :=
    List.Nodup.sublist (List.take_sublist _ _) (by decide)
  have rounds : (Phase.working.take count).filter (fun p => p == phase) =
      if phase ∈ Phase.working.take count then [phase] else [] := by
    rw [List.filter_beq, distinct.count]
    split <;> rfl
  rw [List.filter_map]
  change ((Phase.working.take count).filter fun p => p == phase).map _ = _
  rw [rounds]
  split <;> rfl

/-- A run visits its whole roster in the phases in which it makes calls, and nobody in the
others. -/
theorem visited_of_trace {r : Roster ι} {run : Run} {d : Due}
    (calls : run.world.calls = trace r.registry.entries d) (phase : Phase) :
    r.visited run phase =
      if phase ∈ Phase.working.take d.count ∨ phase = .cleanup ∧ d.ended = true ∧ d.count ≠ 0
      then r.entries else [] := by
  have never : Phase.cleanup ∉ Phase.working.take d.count := fun h =>
    absurd (List.mem_of_mem_take h) (by decide)
  rw [visited, calls, trace, List.filter_append, filter_working]
  by_cases last : phase = .cleanup
  · subst last
    -- Before any setup a cleanup calls nobody.
    cases d.ended <;> by_cases none : d.count = 0 <;> simp [never, none, entries]
  · have other : (Phase.cleanup == phase) = false := beq_false_of_ne (Ne.symm last)
    have none : List.filter (fun c => c.1 == phase) (if d.ended = true then
        [(Phase.cleanup, if d.count = 0 then [] else r.registry.entries)] else []) = [] := by
      cases d.ended <;> simp [other]
    rw [none, List.append_nil]
    by_cases due : phase ∈ Phase.working.take d.count
    · rw [if_pos due, if_pos (.inl due)]
      simp [entries]
    · have idle : ¬(phase ∈ Phase.working.take d.count ∨
          phase = .cleanup ∧ d.ended = true ∧ d.count ≠ 0) := by
        rintro (h | ⟨h, -⟩)
        · exact due h
        · exact last h
      rw [if_neg due, if_neg idle, List.flatMap_nil]

end Roster

/-- What is certain of the tree `t` of rosters: when `build` succeeds, what the roster is then, and
whom its runs visit. -/
structure Composes {ι : Type} (t : Tree ι) : Prop where
  /-- It can be put together exactly if its `names` are distinct. -/
  builds_iff : (∃ r, t.build = .ok r) ↔ t.names.Nodup
  /-- Otherwise the error is `duplicateName`, with a name that is there at least twice. -/
  collides : ¬t.names.Nodup → ∃ name, t.build = .error (.duplicateName name) ∧
    2 ≤ t.names.count name
  /-- The roster is the entries of `flat`, from left to right, each with its observer. -/
  flat : ∀ r, t.build = .ok r → r.entries = t.flat
  /-- How it is nested is of no matter: two trees with the same `flat` come to the same roster. -/
  nesting : ∀ u : Tree ι, u.flat = t.flat → ∀ r, u.build = .ok r ↔ t.build = .ok r
  /-- In a phase a run of the roster visits all of `flat` from left to right, or nobody, whatever
  happens to it. -/
  visits : ∀ r, t.build = .ok r → ∀ runId limits origin acts phase,
    let run := (Run.new runId r.registry limits origin).after acts
    r.visited run phase = [] ∨ r.visited run phase = t.flat
  /-- If all phases were asked for in their order and the run is not cancelled, it has visited all
  of `flat` once in each phase. -/
  whole : ∀ r, t.build = .ok r → ∀ runId limits origin acts before rest,
    let run := (Run.new runId r.registry limits origin).after acts
    Run.asked acts = before ++ .cleanup :: rest → .cleanup ∉ before →
    List.Sublist Phase.working before → run.isFree = true → run.orchestrator.cancelled = false →
    ∀ phase, r.visited run phase = t.flat

namespace Tree

variable {ι : Type}

theorem exists_build_iff (t : Tree ι) : (∃ r, t.build = .ok r) ↔ t.names.Nodup := by
  have comes := t.comes_build
  constructor
  · rintro ⟨r, built⟩
    rw [built] at comes
    rw [← names_of_comes comes]
    exact r.registry.distinct
  · intro distinct
    cases built : t.build with
    | ok r => exact ⟨r, rfl⟩
    | error e =>
      rw [built] at comes
      obtain ⟨name, -, twice⟩ := comes
      have once : t.names.count name ≤ 1 := by
        rw [distinct.count]
        split <;> decide
      omega

theorem entries_of_build {t : Tree ι} {r : Roster ι} (built : t.build = .ok r) :
    r.entries = t.flat := by
  have comes := t.comes_build
  rw [built] at comes
  exact comes

theorem build_of_flat {t u : Tree ι} (same : u.flat = t.flat) {r : Roster ι}
    (built : t.build = .ok r) : u.build = .ok r := by
  have distinct : u.names.Nodup := by
    rw [names, same]
    exact t.exists_build_iff.1 ⟨r, built⟩
  obtain ⟨r', built'⟩ := u.exists_build_iff.2 distinct
  have entries : r'.entries = r.entries := by
    rw [entries_of_build built', entries_of_build built, same]
  rw [built', Roster.eq_of_entries entries]

theorem composes (t : Tree ι) : Composes t where
  builds_iff := t.exists_build_iff
  collides repeated := by
    cases built : t.build with
    | ok r => exact absurd (t.exists_build_iff.1 ⟨r, built⟩) repeated
    | error e =>
      have comes := t.comes_build
      rw [built] at comes
      obtain ⟨name, rfl, twice⟩ := comes
      exact ⟨name, rfl, twice⟩
  flat _ built := entries_of_build built
  nesting _ same _ := ⟨build_of_flat same.symm, build_of_flat same⟩
  visits r built runId limits origin acts phase := by
    obtain ⟨made, traced⟩ := Schedule.traced_after runId r.registry limits origin acts
    intro run
    rw [Roster.visited_of_trace traced.calls phase, ← entries_of_build built]
    split
    · exact .inr rfl
    · exact .inl rfl
  whole r built runId limits origin acts before rest := by
    intro run asked working order free going phase
    obtain ⟨made, traced⟩ := Schedule.traced_after runId r.registry limits origin acts
    -- Nothing was skipped, so all that is due was done.
    have due : made = ⟨5, true⟩ := by
      rw [traced.level free going, asked]
      exact Due.ofPhases_of_sublist rest working order
    rw [Roster.visited_of_trace traced.calls phase, due, ← entries_of_build built]
    cases phase <;> rfl

end Tree

/-- Registries keep their laws through every sequence of operations, those that fail included
(`Lawful`), and a tree of them comes to its entries from left to right however it is nested
(`Composes`). -/
theorem registry_composition {ι : Type} :
    (∀ (t : Table ι) (ops : List (Op ι)), Lawful (t.after ops)) ∧ ∀ t : Tree ι, Composes t :=
  ⟨fun t ops => (t.after ops).lawful, Tree.composes⟩

-- The registry that is taken in has one name of its own and one that is taken.
example :
    let ops : List (Op Nat) :=
      [.register 0 "shared" "Parent" 1, .register 1 "fresh" "Child" 2,
       .register 1 "shared" "Child" 1, .compose 0 1]
    let t : Table Nat := Table.after (fun _ => {}) ops
    (t 0).entries = [(⟨"shared", "Parent"⟩, 1)] ∧ (t 1).entries = [] := by
  decide

end Vigil
