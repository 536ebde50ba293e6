import Vigil.Proofs.Files

/-!
# What a write leaves alone

The place to which a path leads does not depend on what stands in a tree. Only at this place does a
write put a file. Elsewhere it makes at most the missing directories above the file, and every other
file stays as it was, whether the write is refused or not.

The module introduces:

* `Component.way`, the place to which components lead, and `FileTree.placeOf`, that of a path;
* `FileTree.Above`, the directories on the way to a path;
* `FileTree.Leaves`, what a write leaves of a tree.
-/

namespace Vigil

/-- The place to which `components` lead from `place`, as far as every step can be taken. -/
def Component.way (place : Place) (components : List Component) : Place :=
  components.foldl
    (fun place c =>
      match c with
      | .root => []
      | .current => place
      | .parent => place.dropLast
      | .name s => place ++ [s])
    place

namespace Component

variable {place : Place} {front back : List Component}

theorem way_append (place : Place) (front back : List Component) :
    way place (front ++ back) = way (way place front) back :=
  List.foldl_append

theorem way_names (place names : Place) : way place (names.map .name) = place ++ names := by
  induction names generalizing place with
  | nil => exact (List.append_nil place).symm
  | cons s rest ih =>
    show way (place ++ [s]) (rest.map .name) = place ++ s :: rest
    rw [ih, List.append_assoc, List.singleton_append]

end Component

namespace FileTree

variable {t t' t'' : FileTree} {path other : String} {components : List Component}
  {place there : Place} {content : List UInt8}

/-- The place of the file to which `path` leads, from the working directory on. -/
def placeOf (t : FileTree) (path : String) : Place :=
  Component.way t.workingDirectory (Path.components path)

theorem way_of_step {c : Component} (h : t.step place c = .ok there) :
    there = Component.way place [c] := by
  cases c with
  | root | current | parent =>
    cases h
    rfl
  | name s =>
    obtain ⟨-, -, same⟩ := step_name_iff.1 h
    exact same.symm

/-- Components lead where `Component.way` says, or nowhere. -/
theorem way_of_walk (h : t.walk place components = .ok there) :
    there = Component.way place components := by
  induction components generalizing place with
  | nil =>
    cases h
    rfl
  | cons c rest ih =>
    obtain ⟨next, first, after⟩ := walk_cons_iff.1 h
    rw [← List.singleton_append, Component.way_append, ← way_of_step first]
    exact ih after

theorem locate_eq_ok_iff : t.locate components = .ok (some place) ↔
    ∃ front s there, components = front ++ [.name s] ∧
      t.walk t.workingDirectory front = .ok there ∧ s.utf8ByteSize ≤ longestName ∧
      there ++ [s] = place := by
  constructor
  · intro h
    rcases List.eq_nil_or_concat components with rfl | ⟨front, last, same⟩
    · cases h
    · rw [List.concat_eq_append] at same
      subst same
      cases last with
      | name s =>
        obtain ⟨there, reached, short, same⟩ := locate_name_iff.1 h
        exact ⟨front, s, there, rfl, reached, short, same⟩
      -- A path that ends with none of its own names has no place.
      | root | current | parent =>
        unfold locate at h
        rw [List.getLast?_concat, List.dropLast_concat] at h
        simp only [bind, Except.bind] at h
        cases reached : t.walk t.workingDirectory front <;> simp [reached] at h
  · rintro ⟨front, s, there, rfl, reached, short, same⟩
    exact locate_name_iff.2 ⟨there, reached, short, same⟩

theorem way_of_locate (h : t.locate components = .ok (some place)) :
    place = Component.way t.workingDirectory components := by
  obtain ⟨front, s, there, rfl, reached, -, same⟩ := locate_eq_ok_iff.1 h
  rw [Component.way_append, ← way_of_walk reached, ← same]
  rfl

theorem locate_mono (same : t'.workingDirectory = t.workingDirectory)
    (kept : ∀ p, t.get? p = some .directory → t'.get? p = some .directory)
    (h : t.locate components = .ok (some place)) : t'.locate components = .ok (some place) := by
  obtain ⟨front, s, there, split, reached, short, last⟩ := locate_eq_ok_iff.1 h
  rw [← same] at reached
  exact locate_eq_ok_iff.2 ⟨front, s, there, split, walk_mono kept reached, short, last⟩

/-! ## Directories that are made -/

theorem dropLast_of_parent? {above : List Component} (h : Path.parent? components = some above) :
    above = components.dropLast := by
  unfold Path.parent? at h
  split at h
  · cases h
  · cases h
  · exact (Option.some.inj h).symm

/-- The `place` lies on the way of the `components`, which begins at the working directory. -/
def OnWay (t : FileTree) (components : List Component) (place : Place) : Prop :=
  ∃ front, front <+: components ∧ place = Component.way t.workingDirectory front

/-- Missing directories on the way of the components have been made in `t'`, and nothing else
differs from `t`. -/
structure Grows (t : FileTree) (components : List Component) (t' : FileTree) : Prop where
  workingDirectory : t'.workingDirectory = t.workingDirectory
  kept : ∀ place, t'.get? place = t.get? place ∨
    t.get? place = none ∧ t'.get? place = some .directory ∧ t.OnWay components place

namespace Grows

theorem refl (t : FileTree) (components : List Component) : t.Grows components t :=
  ⟨rfl, fun _ => .inl rfl⟩

theorem trans (one : t.Grows components t') (two : t'.Grows components t'') :
    t.Grows components t'' where
  workingDirectory := two.workingDirectory.trans one.workingDirectory
  kept place := by
    -- What the second one has made was not there after the first one.
    rcases two.kept place with same | ⟨free, made, front, before, way⟩
    · rw [same]
      exact one.kept place
    · rcases one.kept place with same | ⟨-, directory, -⟩
      · rw [same] at free
        rw [one.workingDirectory] at way
        exact .inr ⟨free, made, front, before, way⟩
      · cases free.symm.trans directory

theorem longer {above : List Component} (h : t.Grows above t') (less : above <+: components) :
    t.Grows components t' where
  workingDirectory := h.workingDirectory
  kept place := (h.kept place).imp_right fun ⟨free, made, front, before, way⟩ =>
    ⟨free, made, front, before.trans less, way⟩

theorem directory (h : t.Grows components t') {p : Place} (before : t.get? p = some .directory) :
    t'.get? p = some .directory := by
  rcases h.kept p with same | ⟨free, -⟩
  · rwa [same]
  · cases free.symm.trans before

theorem makeDirectory (h : t.makeDirectory components = .ok t') : t.Grows components t' := by
  unfold FileTree.makeDirectory at h
  simp only [bind, Except.bind] at h
  cases found : t.locate components with
  | error e => simp [found] at h
  | ok place? =>
    cases place? with
    | none => simp [found] at h
    | some place =>
      cases free : t.get? place with
      | some node => simp [found, free] at h
      | none =>
        simp only [found, free] at h
        cases h
        -- The root is a directory from the start, so the place is below it.
        have file : t.get? place ≠ some .directory := by simp [free]
        refine ⟨rfl, fun p => ?_⟩
        rw [get?_set t _ (ne_nil_of_get? file)]
        by_cases own : p = place
        · rw [if_pos own, own]
          exact .inr ⟨free, rfl, components, List.prefix_rfl, way_of_locate found⟩
        · rw [if_neg own]
          exact .inl rfl

theorem makeDirectories (n : Nat) (t : FileTree) (components : List Component) :
    t.Grows components (t.makeDirectories n components).2 := by
  -- Over the levels; a directory is made before or after those above it.
  induction n generalizing t components with
  | zero =>
    unfold FileTree.makeDirectories
    split
    · exact refl t components
    · split
      · next made => exact makeDirectory made
      · exact refl t components
      · split <;> exact refl t components
  | succ n ih =>
    unfold FileTree.makeDirectories
    split
    · exact refl t components
    · split
      · next made => exact makeDirectory made
      · split
        · next m above same parent =>
          obtain rfl : n = m := Nat.succ.inj same
          have less : above <+: components := by
            rw [dropLast_of_parent? parent]
            exact List.dropLast_prefix components
          have first := (ih t above).longer less
          split
          · next made => rwa [made] at first
          · next made =>
            rw [made] at first
            split
            · next last => exact first.trans (makeDirectory last)
            · exact first
        · exact refl t components
      · exact refl t components

theorem makeParents (t : FileTree) (path : String) :
    t.Grows (Path.components path).dropLast (t.makeParents path).2 := by
  unfold FileTree.makeParents
  split
  · exact refl t _
  · next above parent =>
    obtain rfl := dropLast_of_parent? parent
    split
    · exact refl t _
    · exact makeDirectories _ t _

end Grows

/-! ## Files that are written -/

/-- The `place` is that of a directory on the way to `path`. -/
def Above (t : FileTree) (path : String) (place : Place) : Prop :=
  t.OnWay (Path.components path).dropLast place

/-- A write to `path` changed nothing but the file there and the directories on the way to it. -/
structure Leaves (t : FileTree) (path : String) (t' : FileTree) : Prop where
  workingDirectory : t'.workingDirectory = t.workingDirectory
  directory : ∀ place, t.get? place = some .directory → t'.get? place = some .directory
  elsewhere : ∀ place, place ≠ t.placeOf path → t'.get? place = t.get? place ∨
    t.get? place = none ∧ t'.get? place = some .directory ∧ t.Above path place

namespace Leaves

theorem of_grows (h : t.Grows (Path.components path).dropLast t') : t.Leaves path t' where
  workingDirectory := h.workingDirectory
  directory _ := h.directory
  elsewhere place _ := h.kept place

theorem refl (t : FileTree) (path : String) : t.Leaves path t := .of_grows (.refl t _)

/-- Whatever is written to `path`, and whether it is refused, `FileTree.put` leaves all else
alone. -/
theorem put (t : FileTree) (path : String) (content : List UInt8) :
    t.Leaves path (t.put path content).2 := by
  have grows := Grows.makeParents t path
  unfold FileTree.put
  split
  · next made =>
    rw [made] at grows
    exact .of_grows grows
  · next made =>
    rw [made] at grows
    split
    · next written =>
      -- The directories that were made do not change the place to which the path leads.
      obtain ⟨-, place, located, free, rfl⟩ := writeFile_eq_ok written
      have own : place = t.placeOf path := by
        have way := way_of_locate located
        rwa [grows.workingDirectory] at way
      refine ⟨grows.workingDirectory, fun p before => directory_set free (grows.directory before),
        fun p other => ?_⟩
      rw [get?_set _ _ (ne_nil_of_get? free), if_neg (own ▸ other)]
      exact grows.kept p
    · exact .of_grows grows

/-- A file elsewhere stays as it was, by the frame `Leaves`. -/
theorem file (h : t.Leaves path t') (apart : place ≠ t.placeOf path)
    (before : t.get? place = some (.file content)) : t'.get? place = some (.file content) := by
  rcases h.elsewhere place apart with same | ⟨free, -⟩
  · rwa [same]
  · cases free.symm.trans before

/-- What a path elsewhere leads to can still be read, with the same content. -/
theorem contentAt (h : t.Leaves path t') (apart : t.placeOf other ≠ t.placeOf path)
    (before : t.contentAt other = .ok content) : t'.contentAt other = .ok content := by
  obtain ⟨accepted, ends, place, located, file⟩ := contentAt_eq_ok_iff.1 before
  have own : place = t.placeOf other := way_of_locate located
  exact contentAt_eq_ok_iff.2 ⟨accepted, ends, place,
    locate_mono h.workingDirectory h.directory located, h.file (own ▸ apart) file⟩

end Leaves
end FileTree
end Vigil
