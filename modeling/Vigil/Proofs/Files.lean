import Vigil.Storage.Sink

/-!
# Files beside each other

The components of a path to a file of a sink are those of its directory and the name of the file.
A file that is written leaves every directory where it is, so two files of one directory can be
written one after the other if each of them can be written by itself, and both can be read then.

The module introduces:

* `Path.IsName`, when a text is a single component;
* `FileTree.Takes`, when a file can be written at a path;
* `FileTree.Site`, the place where it is written.
-/

namespace Vigil

namespace Path

/-- The text `name` has no separator in it, and as a piece of a path it is the component of that
name. -/
structure IsName (name : String) : Prop where
  whole : '/' ∉ name.toList
  component : component? name.toList = some (.name name)

/-- The names that `checkName` accepts are single components. -/
theorem isName_of_checkName {name : String} (h : checkName name = .ok ()) : IsName name := by
  unfold checkName at h
  split at h
  · cases h
  · next nonempty =>
    split at h
    · cases h
    · next dots =>
      split at h
      · cases h
      · next plain =>
        have empty : name.toList ≠ [] := by simpa using nonempty
        have same (text : String) (other : name ≠ text) : name.toList ≠ text.toList := fun h =>
          other (String.toList_inj.1 h)
        obtain ⟨dot, twoDots⟩ := not_or.1 dots
        refine ⟨?_, ?_⟩
        · intro slash
          exact plain (List.any_eq_true.2 ⟨'/', slash, rfl⟩)
        · -- Only the empty text and the two kinds of dots are no names of their own.
          have one : name.toList ≠ ['.'] := same "." dot
          have two : name.toList ≠ ['.', '.'] := same ".." twoDots
          simp [component?, empty, one, two]

theorem pieces_append (cs ds : List Char) : pieces (cs ++ '/' :: ds) = pieces cs ++ pieces ds :=
  List.splitOnP_append_cons cs ds rfl

theorem components_of_pieces {path : String} {first : List Char} {rest : List (List Char)}
    (h : pieces path.toList = first :: rest) :
    components path =
      (if isAbsolute path then [Component.root]
        else if first = ['.'] then [Component.current]
        else (component? first).toList) ++ rest.filterMap component? := by
  unfold components
  rw [h]

theorem exists_pieces (cs : List Char) : ∃ first rest, pieces cs = first :: rest :=
  List.exists_cons_of_ne_nil (List.splitOnP_ne_nil _ cs)

theorem isAbsolute_append {path : String} (after : String) (h : path.toList ≠ []) :
    isAbsolute (path ++ after) = isAbsolute path := by
  obtain ⟨c, rest, same⟩ := List.exists_cons_of_ne_nil h
  simp [isAbsolute, same]

namespace IsName

variable {name : String}

theorem pieces_eq (h : IsName name) : pieces name.toList = [name.toList] :=
  List.splitOn_eq_singleton h.whole

theorem ne_nil (h : IsName name) : name.toList ≠ [] := by
  intro empty
  have component := h.component
  simp [component?, empty] at component

theorem ne_dot (h : IsName name) : name.toList ≠ ['.'] := by
  intro dot
  have component := h.component
  simp [component?, dot] at component

theorem isAbsolute_eq (h : IsName name) : isAbsolute name = false := by
  obtain ⟨c, rest, same⟩ := List.exists_cons_of_ne_nil h.ne_nil
  have other : c ≠ '/' := by
    rintro rfl
    exact h.whole (by simp [same])
  simp [isAbsolute, same, other]

end IsName

/-- Joining a name to the path `root` adds it to the components, and nothing else. -/
theorem components_join (root : String) {name : String} (h : IsName name) :
    components (join root name) = components root ++ [.name name] := by
  have only : [name.toList].filterMap component? = [.name name] := by
    simp [h.component]
  unfold join
  rw [h.isAbsolute_eq, if_neg Bool.false_ne_true]
  by_cases empty : root.toList = []
  · -- Nothing stands before the name.
    obtain rfl : root = "" := String.toList_inj.1 empty
    have alone : components name = [.name name] := by
      rw [components_of_pieces h.pieces_eq]
      simp [h.isAbsolute_eq, h.ne_dot, h.component]
    simpa [components, pieces, isAbsolute, component?] using alone
  · have absolute (after : String) : isAbsolute (root ++ after) = isAbsolute root :=
      isAbsolute_append after empty
    by_cases slash : root.toList.getLast? = some '/'
    · -- The root ends with a separator: after it stands an empty piece, and now the name.
      obtain ⟨init, ends⟩ := List.getLast?_eq_some_iff.1 slash
      obtain ⟨first, rest, split⟩ := exists_pieces init
      have before : pieces root.toList = first :: (rest ++ [[]]) := by
        rw [ends, pieces_append, split]
        rfl
      have now : pieces (root ++ name).toList = first :: (rest ++ [name.toList]) := by
        rw [String.toList_append, ends, List.append_assoc, List.singleton_append, pieces_append,
          split, h.pieces_eq]
        rfl
      have gone : [([] : List Char)].filterMap component? = [] := rfl
      rw [if_pos (Or.inr slash), components_of_pieces before, components_of_pieces now, absolute,
        List.filterMap_append, List.filterMap_append, only, gone, List.append_nil,
        List.append_assoc]
    · -- A separator is put between the root and the name.
      obtain ⟨first, rest, split⟩ := exists_pieces root.toList
      have now : pieces (root ++ "/" ++ name).toList = first :: (rest ++ [name.toList]) := by
        have apart : (root ++ "/" ++ name).toList = root.toList ++ '/' :: name.toList := by
          simp
        rw [apart, pieces_append, split, h.pieces_eq]
        rfl
      have other : ¬(root.isEmpty = true ∨ root.toList.getLast? = some '/') := by
        rintro (none | last)
        · exact empty (by simpa using none)
        · exact slash last
      rw [if_neg other, components_of_pieces split, components_of_pieces now, String.append_assoc,
        absolute, List.filterMap_append, only, List.append_assoc]

theorem getLast?_join_ne (root : String) {name : String} (h : IsName name) :
    (join root name).toList.getLast? ≠ some '/' := by
  have ends (before : List Char) : (before ++ name.toList).getLast? ≠ some '/' := by
    rw [List.getLast?_append, List.getLast?_eq_some_getLast h.ne_nil]
    intro slash
    exact h.whole (Option.some.inj slash ▸ List.getLast_mem h.ne_nil)
  unfold join
  rw [h.isAbsolute_eq, if_neg Bool.false_ne_true]
  split
  · rw [String.toList_append]
    exact ends _
  · rw [String.toList_append]
    exact ends _

end Path

namespace FileTree

variable {t t' : FileTree} {path root name : String} {place : Place} {content : List UInt8}

theorem get?_set (t : FileTree) {place : Place} (node : Node) (h : place ≠ []) (other : Place) :
    (t.set place node).get? other = if other = place then some node else t.get? other := by
  unfold get? set
  by_cases top : other = []
  · have apart : other ≠ place := fun same => h (same ▸ top)
    simp [top, h.symm]
  · by_cases same : other = place
    · -- What stood at the place before is dropped, so the new node is the first one found.
      subst same
      have gone : (t.nodes.filter fun e => e.1 != other).find? (fun e => e.1 == other) = none := by
        rw [List.find?_eq_none]
        intro e member
        have apart := (List.mem_filter.1 member).2
        simpa using apart
      simp [top, List.find?_append, gone]
    · -- Nothing that stands elsewhere is dropped, and the new node is not found.
      have kept : ((t.nodes.filter fun e => e.1 != place).find? fun e => e.1 == other) =
          t.nodes.find? fun e => e.1 == other := by
        rw [List.find?_filter]
        congr 1
        funext e
        by_cases here : e.1 = other
        · simp [here, same]
        · simp [here]
      have apart : (place == other) = false := by
        simpa using fun h => same h.symm
      simp [top, same, List.find?_append, kept, apart]

section
variable {other there : Place} {components front back : List Component} {c : Component}

theorem walk_cons_iff : t.walk place (c :: components) = .ok there ↔
    ∃ next, t.step place c = .ok next ∧ t.walk next components = .ok there := by
  show (t.step place c).bind (fun next => t.walk next components) = .ok there ↔ _
  cases t.step place c with
  | error e => simp [Except.bind]
  | ok next => simp [Except.bind]

/-- Going along two paths, one after the other, is going along both of them at once. -/
theorem walk_append_iff : t.walk place (front ++ back) = .ok there ↔
    ∃ middle, t.walk place front = .ok middle ∧ t.walk middle back = .ok there := by
  -- Along the first path, whose start moves with every step.
  induction front generalizing place with
  | nil => simp [walk]
  | cons c rest ih =>
    rw [List.cons_append, walk_cons_iff]
    constructor
    · rintro ⟨next, first, after⟩
      obtain ⟨middle, before, after⟩ := ih.1 after
      exact ⟨middle, walk_cons_iff.2 ⟨next, first, before⟩, after⟩
    · rintro ⟨middle, before, after⟩
      obtain ⟨next, first, before⟩ := walk_cons_iff.1 before
      exact ⟨next, first, ih.2 ⟨middle, before, after⟩⟩

theorem ne_nil_of_get? (file : t.get? other ≠ some .directory) : other ≠ [] := by
  rintro rfl
  exact file rfl

/-- A name leads from the directory `place` to another one in it, if it is short enough. -/
theorem step_name_iff {s : String} : t.step place (.name s) = .ok there ↔
    s.utf8ByteSize ≤ longestName ∧ t.get? (place ++ [s]) = some .directory ∧
      place ++ [s] = there := by
  dsimp only [step]
  by_cases long : longestName < s.utf8ByteSize
  · simp [long, Nat.not_le.2 long]
  · rw [if_neg long]
    cases t.get? (place ++ [s]) with
    | none => simp
    | some node => cases node <;> simp [Nat.not_lt.1 long]

theorem step_mono (kept : ∀ p, t.get? p = some .directory → t'.get? p = some .directory)
    (h : t.step place c = .ok there) : t'.step place c = .ok there := by
  cases c with
  | root | current | parent => exact h
  | name s =>
    obtain ⟨short, directory, same⟩ := step_name_iff.1 h
    exact step_name_iff.2 ⟨short, kept _ directory, same⟩

/-- A way leads where it led as long as the directories are there, whatever becomes of the files. -/
theorem walk_mono (kept : ∀ p, t.get? p = some .directory → t'.get? p = some .directory)
    (h : t.walk place components = .ok there) : t'.walk place components = .ok there := by
  induction components generalizing place with
  | nil => exact h
  | cons c rest ih =>
    obtain ⟨next, first, after⟩ := walk_cons_iff.1 h
    exact walk_cons_iff.2 ⟨next, step_mono kept first, ih after⟩

theorem directory_set (file : t.get? other ≠ some .directory) {p : Place}
    (h : t.get? p = some .directory) :
    (t.set other (.file content)).get? p = some .directory := by
  have apart : p ≠ other := by
    rintro rfl
    exact file h
  rw [get?_set t _ (ne_nil_of_get? file), if_neg apart]
  exact h

theorem locate_name_iff {s : String} : t.locate (front ++ [.name s]) = .ok (some place) ↔
    ∃ there, t.walk t.workingDirectory front = .ok there ∧ s.utf8ByteSize ≤ longestName ∧
      there ++ [s] = place := by
  unfold locate
  rw [List.getLast?_concat, List.dropLast_concat]
  simp only [bind, Except.bind]
  cases t.walk t.workingDirectory front with
  | error e => simp
  | ok there =>
    by_cases long : longestName < s.utf8ByteSize
    · simp [long, Nat.not_le.2 long]
    · simp [long, Nat.not_lt.1 long]

theorem makeDirectories_of_walk (n : Nat) (h : t.walk t.workingDirectory components = .ok there) :
    makeDirectories n t components = (.ok (), t) := by
  rcases List.eq_nil_or_concat components with rfl | ⟨above, last, same⟩
  · cases n <;> rfl
  · obtain rfl : components = above ++ [last] := same.trans List.concat_eq_append
    have present : t.isDirectory (above ++ [last]) = true := by
      unfold isDirectory
      rw [h]
    -- A name is refused since its directory is there, and other components have no place.
    have refused : t.makeDirectory (above ++ [last]) = .error .alreadyExists := by
      obtain ⟨place, before, after⟩ := walk_append_iff.1 h
      obtain ⟨next, step, -⟩ := walk_cons_iff.1 after
      unfold makeDirectory
      cases last with
      | root | current | parent =>
        unfold locate
        rw [List.getLast?_concat, List.dropLast_concat, before]
        rfl
      | name s =>
        obtain ⟨short, directory, -⟩ := step_name_iff.1 step
        rw [locate_name_iff.2 ⟨place, before, short, rfl⟩]
        simp only [bind, Except.bind, directory]
    unfold makeDirectories
    rw [refused]
    simp [present]

end

/-- A file can be written at `path`: an empty one is, and then so is every other (`put_eq`). -/
def Takes (t : FileTree) (path : String) : Prop := (t.put path []).1.isOk = true

instance : Decidable (t.Takes path) := inferInstanceAs (Decidable (_ = true))

/-- The directory `root` is at `place`, and a file of that `name` can be written in it. -/
structure Site (t : FileTree) (root name : String) (place : Place) : Prop where
  accepted : refusal? (Path.join root name) = none
  reached : t.walk t.workingDirectory (Path.components root) = .ok place
  short : name.utf8ByteSize ≤ longestName
  free : t.get? (place ++ [name]) ≠ some .directory

/-- A `path` leads to a file that can be read, exactly if nothing on the way refuses it. -/
theorem contentAt_eq_ok_iff : t.contentAt path = .ok content ↔
    refusal? path = none ∧ path.toList.getLast? ≠ some '/' ∧
      ∃ place, t.locate (Path.components path) = .ok (some place) ∧
        t.get? place = some (.file content) := by
  unfold contentAt
  constructor
  · intro h
    simp only [bind, Except.bind] at h
    cases refused : refusal? path with
    | some e => simp [refused, throw, throwThe, MonadExceptOf.throw] at h
    | none =>
      rw [refused] at h
      cases found : t.locate (Path.components path) with
      | error e => simp [found] at h
      | ok place? =>
        cases place? with
        | none => simp [found] at h
        | some place =>
          simp only [found] at h
          -- Nothing may stand there, or a directory, or the file that is read.
          split at h
          · cases h
          · cases h
          · next content' file =>
            split at h
            · cases h
            · -- A path to a file must not end like that of a directory.
              next ends =>
              cases h
              exact ⟨rfl, ends, place, rfl, file⟩
  · rintro ⟨accepted, ends, place, located, file⟩
    simp only [accepted, located, file, if_neg ends, bind, Except.bind]

theorem makeParents_join (h : Path.IsName name) : t.makeParents (Path.join root name) =
    if (Path.components root).any Component.hasZero then (.error .zeroInPath, t)
    else makeDirectories (Path.components root).length t (Path.components root) := by
  unfold makeParents Path.parent?
  rw [Path.components_join root h, List.getLast?_concat, List.dropLast_concat]

namespace Site

theorem locate_eq (s : t.Site root name place) (h : Path.IsName name) :
    t.locate (Path.components (Path.join root name)) = .ok (some (place ++ [name])) := by
  rw [Path.components_join root h]
  exact locate_name_iff.2 ⟨place, s.reached, s.short, rfl⟩

theorem writeFile_eq (s : t.Site root name place) (h : Path.IsName name) (content : List UInt8) :
    t.writeFile (Path.join root name) content = .ok (t.set (place ++ [name]) (.file content)) := by
  have ends := Path.getLast?_join_ne root h
  unfold writeFile
  simp only [s.accepted, s.locate_eq h, ends, bind, Except.bind, ↓reduceIte]
  split
  · next directory => exact absurd directory s.free
  · rfl

theorem contentAt_eq (s : t.Site root name place) (h : Path.IsName name)
    (file : t.get? (place ++ [name]) = some (.file content)) :
    t.contentAt (Path.join root name) = .ok content :=
  contentAt_eq_ok_iff.2
    ⟨s.accepted, Path.getLast?_join_ne root h, place ++ [name], s.locate_eq h, file⟩

theorem set_file {other : Place} (s : t.Site root name place)
    (file : t.get? other ≠ some .directory) :
    (t.set other (.file content)).Site root name place where
  accepted := s.accepted
  reached := walk_mono (fun _ => directory_set file) s.reached
  short := s.short
  free := by
    rw [get?_set t _ (ne_nil_of_get? file)]
    split
    · simp
    · exact s.free

end Site

theorem writeFile_eq_ok (h : t.writeFile path content = .ok t') : refusal? path = none ∧
    ∃ place, t.locate (Path.components path) = .ok (some place) ∧
      t.get? place ≠ some .directory ∧ t' = t.set place (.file content) := by
  unfold writeFile at h
  simp only [bind, Except.bind] at h
  cases refused : refusal? path with
  | some e => simp [refused, throw, throwThe, MonadExceptOf.throw] at h
  | none =>
    rw [refused] at h
    cases found : t.locate (Path.components path) with
    | error e => simp [found] at h
    | ok place? =>
      cases place? with
      | none => simp [found] at h
      | some place =>
        refine ⟨rfl, place, rfl, ?_⟩
        simp only [found] at h
        split at h
        · cases h
        · split at h
          · cases h
          · next other =>
            cases h
            exact ⟨other, rfl⟩

theorem Site.put_eq (s : t'.Site root name place) (h : Path.IsName name)
    (made : t.makeParents (Path.join root name) = (.ok (), t')) (content : List UInt8) :
    t.put (Path.join root name) content =
      (.ok (), t'.set (place ++ [name]) (.file content)) := by
  unfold put
  simp only [made, s.writeFile_eq h]

/-- A file can be written if the directories above it can be made and there is a `Site` for it
then. -/
theorem takes_iff (h : Path.IsName name) : t.Takes (Path.join root name) ↔
    ∃ t' place, t.makeParents (Path.join root name) = (.ok (), t') ∧ t'.Site root name place := by
  constructor
  · intro takes
    unfold Takes put at takes
    split at takes
    · cases takes
    · next t' made =>
      split at takes
      · next t'' written =>
        obtain ⟨accepted, place, located, free, -⟩ := writeFile_eq_ok written
        rw [Path.components_join root h] at located
        obtain ⟨there, reached, short, rfl⟩ := locate_name_iff.1 located
        exact ⟨t', there, made, accepted, reached, short, free⟩
      · cases takes
  · rintro ⟨t', place, made, site⟩
    unfold Takes
    rw [site.put_eq h made]
    rfl

theorem Site.makeParents_eq {t'' : FileTree} (s : t''.Site root name place) (h : Path.IsName name)
    (made : t.makeParents (Path.join root name) = (.ok (), t')) :
    t''.makeParents (Path.join root name) = (.ok (), t'') := by
  -- Whether a component is refused does not depend on the tree.
  rw [makeParents_join h] at made ⊢
  by_cases zero : (Path.components root).any Component.hasZero = true
  · rw [if_pos zero] at made
    cases made
  · rw [if_neg zero]
    exact makeDirectories_of_walk _ s.reached

/-- A file that `Takes` says can be written is written by `put`, whatever it holds, and can be read
then. -/
theorem Takes.put_eq (takes : t.Takes (Path.join root name)) (h : Path.IsName name)
    (content : List UInt8) : ∃ t', t.put (Path.join root name) content = (.ok (), t') ∧
      t'.contentAt (Path.join root name) = .ok content := by
  obtain ⟨made, place, makes, site⟩ := (takes_iff h).1 takes
  refine ⟨_, site.put_eq h makes content, (site.set_file site.free).contentAt_eq h ?_⟩
  rw [get?_set _ _ (by simp), if_pos rfl]

/-- A file can still be written when another one of its directory has been written or refused, since
that leaves its `Site` as it is. -/
theorem Takes.after_put {other : String} (takes : t.Takes (Path.join root name))
    (h : Path.IsName name) (beside : Path.IsName other) (content : List UInt8) :
    (t.put (Path.join root other) content).2.Takes (Path.join root name) := by
  obtain ⟨made, place, makes, site⟩ := (takes_iff h).1 takes
  have also : t.makeParents (Path.join root other) = (.ok (), made) := by
    rw [makeParents_join beside, ← makes, makeParents_join h]
  -- The directories above are there from now on, and the site stays free.
  have still {t' : FileTree} (kept : t'.Site root name place) : t'.Takes (Path.join root name) :=
    (takes_iff h).2 ⟨t', place, kept.makeParents_eq h makes, kept⟩
  unfold put
  simp only [also]
  split
  · next written =>
    obtain ⟨-, there, -, free, rfl⟩ := writeFile_eq_ok written
    exact still (site.set_file free)
  · exact still site

/-- Two files of one directory that can be written by themselves can be written one after the
other, whatever they hold. -/
theorem put_beside {first second : String} (one : Path.IsName first) (two : Path.IsName second)
    (apart : first ≠ second) (takes : t.Takes (Path.join root first))
    (also : t.Takes (Path.join root second)) (before after : List UInt8) :
    ∃ t' t'', t.put (Path.join root first) before = (.ok (), t') ∧
      t'.put (Path.join root second) after = (.ok (), t'') ∧
      t''.contentAt (Path.join root first) = .ok before ∧
      t''.contentAt (Path.join root second) = .ok after := by
  obtain ⟨made, place, makes, site⟩ := (takes_iff one).1 takes
  obtain ⟨made', place', makes', site'⟩ := (takes_iff two).1 also
  -- The same directories are made for both files.
  obtain rfl : made' = made := by
    rw [makeParents_join one] at makes
    rw [makeParents_join two, makes] at makes'
    cases makes'
    rfl
  obtain rfl : place' = place := by
    have same := site'.reached.symm.trans site.reached
    cases same
    rfl
  have other : place' ++ [first] ≠ place' ++ [second] := fun same =>
    apart (List.singleton_inj.1 (List.append_cancel_left same))
  have named (name : String) : place' ++ [name] ≠ [] := by simp
  -- Neither file takes the place of the other one or of a directory above them.
  have next : (made'.set (place' ++ [first]) (.file before)).Site root second place' :=
    site'.set_file site.free
  have kept := next.makeParents_eq two makes'
  refine ⟨_, _, site.put_eq one makes before, next.put_eq two kept after, ?_, ?_⟩
  · refine ((site.set_file site.free).set_file next.free).contentAt_eq one ?_
    rw [get?_set _ _ (named second), if_neg other, get?_set _ _ (named first), if_pos rfl]
  · refine (next.set_file next.free).contentAt_eq two ?_
    rw [get?_set _ _ (named second), if_pos rfl]

theorem site_of_put {t'' : FileTree} (h : Path.IsName name)
    (puts : t.put (Path.join root name) content = (.ok (), t'')) :
    ∃ t' place, t.makeParents (Path.join root name) = (.ok (), t') ∧ t'.Site root name place ∧
      t'' = t'.set (place ++ [name]) (.file content) := by
  -- Whether a file is taken does not depend on its content, and this one was.
  have takes : t.Takes (Path.join root name) := by
    unfold put at puts
    unfold Takes put
    split at puts
    · cases puts
    · next t' made =>
      split at puts
      · next written =>
        obtain ⟨accepted, place, located, free, -⟩ := writeFile_eq_ok written
        rw [Path.components_join root h] at located
        obtain ⟨there, reached, short, rfl⟩ := locate_name_iff.1 located
        rw [Site.writeFile_eq ⟨accepted, reached, short, free⟩ h]
        rfl
      · cases puts
  obtain ⟨t', place, made, site⟩ := (takes_iff h).1 takes
  rw [site.put_eq h made] at puts
  cases puts
  exact ⟨t', place, made, site, rfl⟩

/-- Two files of one directory that were written one after the other can both be read: the second
write leaves the first file alone. -/
theorem contentAt_beside {t'' : FileTree} {first second : String} {before after : List UInt8}
    (one : Path.IsName first) (two : Path.IsName second) (apart : first ≠ second)
    (puts : t.put (Path.join root first) before = (.ok (), t'))
    (also : t'.put (Path.join root second) after = (.ok (), t'')) :
    t''.contentAt (Path.join root first) = .ok before ∧
      t''.contentAt (Path.join root second) = .ok after := by
  obtain ⟨made, place, makes, site, rfl⟩ := site_of_put one puts
  obtain ⟨made', place', makes', site', rfl⟩ := site_of_put two also
  have kept : (made.set (place ++ [first]) (.file before)).Site root first place :=
    site.set_file site.free
  -- The directories are all there when the second file comes.
  obtain rfl : made' = made.set (place ++ [first]) (.file before) := by
    have again := kept.makeParents_eq one makes
    rw [makeParents_join one] at again
    rw [makeParents_join two, again] at makes'
    cases makes'
    rfl
  obtain rfl : place' = place := by
    have same := site'.reached.symm.trans kept.reached
    cases same
    rfl
  have other : place' ++ [first] ≠ place' ++ [second] := fun same =>
    apart (List.singleton_inj.1 (List.append_cancel_left same))
  have named (name : String) : place' ++ [name] ≠ [] := by simp
  refine ⟨(kept.set_file site'.free).contentAt_eq one ?_,
    (site'.set_file site'.free).contentAt_eq two ?_⟩
  · rw [get?_set _ _ (named second), if_neg other, get?_set _ _ (named first), if_pos rfl]
  · rw [get?_set _ _ (named second), if_pos rfl]

end FileTree
end Vigil
