import Vigil.ClusterInfo
import Vigil.Proofs.Except
import Vigil.Proofs.Frame
import Vigil.Proofs.Reports
import Vigil.ReportFiles

/-!
# Every file of a sink has a path of its own

A sink gives a path for a file of the run, and one for a file of an observer. Their components are
those of the directory of the sink and one or two plain names, whatever the directory looks like. So
two files have the same path only if they have the same names, and a file of an observer never has
the path of a file of the run. What is written to one of them leaves all others as they were.

The module introduces:

* `Path.IsPlain`, the names that a sink takes;
* `Sink.Slot`, a file of an observer or of the run, and `Sink.slotPath`, its path;
* `Sink.Writes`, what comes of any writes with a sink;
* `Sink.KeepsApart`, what is certain of the paths of a sink.
-/

namespace Vigil

open Vigil.Path

/-- The text `name` is the name of one file or directory on every system, whichever separator it
uses. -/
structure Path.IsPlain (name : String) : Prop where
  nonempty : name ≠ ""
  noDot : name ≠ "."
  noTwoDots : name ≠ ".."
  noSlash : '/' ∉ name.toList
  noBackslash : '\\' ∉ name.toList

/-- A sink takes the plain names and no others: `checkName` decides `IsPlain`. -/
theorem checkName_eq_ok_iff {name : String} : checkName name = .ok () ↔ IsPlain name := by
  -- The check goes through the characters once, for both kinds of separators.
  have separators : (name.toList.any fun c => c == '/' || c == '\\') = false ↔
      '/' ∉ name.toList ∧ '\\' ∉ name.toList := by
    rw [List.any_eq_false]
    constructor
    · intro none
      exact ⟨fun slash => none _ slash rfl, fun backslash => none _ backslash rfl⟩
    · rintro ⟨noSlash, noBackslash⟩ c member separator
      rcases Bool.or_eq_true_iff.1 separator with slash | backslash
      · exact noSlash (eq_of_beq slash ▸ member)
      · exact noBackslash (eq_of_beq backslash ▸ member)
  have empty : name.isEmpty = true ↔ name = "" := by simp
  unfold checkName
  constructor
  · intro taken
    split at taken
    · cases taken
    · next nonempty =>
      split at taken
      · cases taken
      · next dots =>
        split at taken
        · cases taken
        · next plain =>
          obtain ⟨noSlash, noBackslash⟩ := separators.1 (Bool.eq_false_iff.2 plain)
          obtain ⟨noDot, noTwoDots⟩ := not_or.1 dots
          exact ⟨fun h => nonempty (empty.2 h), noDot, noTwoDots, noSlash, noBackslash⟩
  · intro plain
    have other := separators.2 ⟨plain.noSlash, plain.noBackslash⟩
    rw [if_neg fun h => plain.nonempty (empty.1 h),
      if_neg (not_or.2 ⟨plain.noDot, plain.noTwoDots⟩), if_neg (Bool.eq_false_iff.1 other)]

theorem Path.IsPlain.isName {name : String} (h : IsPlain name) : IsName name :=
  isName_of_checkName (checkName_eq_ok_iff.2 h)

namespace Sink

/-! ## The path of a file -/

/-- A file of a sink: that of an observer, which is its `owner`, or one of the run itself. -/
structure Slot where
  /-- The observer, if it is the file of one. -/
  owner : Option String
  file : String

/-- The names that lead from the directory of a sink to the file: those of its owner, if it has one,
and of the file. -/
def Slot.names (slot : Slot) : List String := slot.owner.toList ++ [slot.file]

/-- Only the same slot has the same names, as a file of the run has one name and that of an observer
two. -/
theorem Slot.names_inj {one other : Slot} (h : one.names = other.names) : one = other := by
  obtain ⟨owners, files⟩ := List.append_inj' h rfl
  obtain ⟨owner, file⟩ := one
  obtain ⟨owner', file'⟩ := other
  obtain rfl : file = file' := List.singleton_inj.1 files
  cases owner <;> cases owner' <;> simp_all

/-- The path of the file `slot`, unless one of its names is refused. -/
def slotPath (s : Sink) (slot : Slot) : Except Error String :=
  match slot.owner with
  | none => s.filePath slot.file
  | some observer => s.artifactPath observer slot.file

theorem slotPath_artifact (s : Sink) (observer file : String) :
    s.slotPath ⟨some observer, file⟩ = s.artifactPath observer file := rfl

theorem slotPath_file (s : Sink) (file : String) : s.slotPath ⟨none, file⟩ = s.filePath file := rfl

section
variable {s : Sink} {slot slot' : Slot} {path path' : String}

theorem slotPath_eq_ok_iff : s.slotPath slot = .ok path ↔
    (∀ name ∈ slot.names, IsPlain name) ∧ slot.names.foldl Path.join s.root = path := by
  have checked (name : String) (isPlain : IsPlain name) : checkName name = .ok () :=
    checkName_eq_ok_iff.2 isPlain
  have refused (name : String) (other : ¬IsPlain name) : ∃ e, checkName name = .error e := by
    cases taken : checkName name with
    | error e => exact ⟨e, rfl⟩
    | ok => exact absurd (checkName_eq_ok_iff.1 taken) other
  obtain ⟨owner, file⟩ := slot
  cases owner with
  | none =>
    show s.filePath file = .ok path ↔ (∀ name ∈ [file], IsPlain name) ∧ _
    unfold filePath
    by_cases plain : IsPlain file
    · simp [checked file plain, plain, Slot.names, bind, Except.bind]
    · obtain ⟨e, error⟩ := refused file plain
      simp [error, plain, bind, Except.bind]
  | some observer =>
    show s.artifactPath observer file = .ok path ↔ (∀ name ∈ [observer, file], IsPlain name) ∧ _
    unfold artifactPath
    -- The name of the observer is looked at first.
    by_cases owned : IsPlain observer
    · by_cases plain : IsPlain file
      · simp [checked _ owned, checked _ plain, owned, plain, Slot.names, bind, Except.bind]
      · obtain ⟨e, error⟩ := refused file plain
        simp [checked _ owned, error, plain, bind, Except.bind]
    · obtain ⟨e, error⟩ := refused observer owned
      simp [error, owned, bind, Except.bind]

theorem exists_slotPath_iff :
    (∃ path, s.slotPath slot = .ok path) ↔ ∀ name ∈ slot.names, IsPlain name := by
  simp only [slotPath_eq_ok_iff, exists_and_left, exists_eq', and_true]

theorem artifactPath_eq_ok {observer file : String} (h : s.artifactPath observer file = .ok path) :
    IsPlain file ∧ path = Path.join (Path.join s.root observer) file := by
  rw [← slotPath_artifact] at h
  obtain ⟨plain, same⟩ := slotPath_eq_ok_iff.1 h
  exact ⟨plain file (by simp [Slot.names]), same.symm⟩

/-- Names that are joined one after the other come after the components of `root`, in their
order. -/
theorem components_joins (root : String) {names : List String}
    (plain : ∀ name ∈ names, IsPlain name) :
    components (names.foldl Path.join root) = components root ++ names.map .name := by
  -- Every name is joined to a directory of which the components are known.
  induction names generalizing root with
  | nil => exact (List.append_nil _).symm
  | cons name rest ih =>
    obtain ⟨first, others⟩ := List.forall_mem_cons.1 plain
    rw [List.foldl_cons, ih (Path.join root name) others, components_join root first.isName,
      List.append_assoc]
    rfl

theorem components_slotPath (h : s.slotPath slot = .ok path) :
    components path = components s.root ++ slot.names.map .name := by
  obtain ⟨plain, rfl⟩ := slotPath_eq_ok_iff.1 h
  exact components_joins s.root plain

/-- Two files have the same path only if they are the same, whether it is the components of the
paths that are compared or their texts. -/
theorem same_path_iff (one : s.slotPath slot = .ok path) (other : s.slotPath slot' = .ok path') :
    (components path = components path' ↔ slot = slot') ∧ (path = path' ↔ slot = slot') := by
  have names : components path = components path' → slot = slot' := by
    -- Both begin with the components of the directory, and go on with the names.
    rw [components_slotPath one, components_slotPath other, List.append_cancel_left_eq]
    intro same
    exact Slot.names_inj ((List.map_inj_right fun _ _ => Component.name.inj).1 same)
  have texts : slot = slot' → path = path' := by
    rintro rfl
    exact Except.ok.inj (one.symm.trans other)
  exact ⟨⟨names, fun same => congrArg components (texts same)⟩,
    ⟨fun same => names (congrArg components same), texts⟩⟩

theorem slotPath_of_reportPaths {suffix : String} {paths : ReportPaths}
    (h : s.reportPaths suffix = .ok paths) :
    s.slotPath ⟨none, "e2e-intervals" ++ suffix ++ ".json"⟩ = .ok paths.intervals ∧
      s.slotPath ⟨none, "observer-results" ++ suffix ++ ".json"⟩ = .ok paths.results := by
  obtain ⟨intervals, first, h⟩ := exists_of_bind_eq_ok h
  obtain ⟨results, second, h⟩ := exists_of_bind_eq_ok h
  cases h
  exact ⟨first, second⟩

/-! ## What is written -/

theorem placeOf_slotPath (t : FileTree) (h : s.slotPath slot = .ok path) :
    t.placeOf path = Component.way t.workingDirectory (components s.root) ++ slot.names := by
  unfold FileTree.placeOf
  rw [components_slotPath h, Component.way_append, Component.way_names]

/-- Two files have different places in every tree `t`, since their names differ and all else is the
same. -/
theorem placeOf_ne (t : FileTree) (one : s.slotPath slot = .ok path)
    (other : s.slotPath slot' = .ok path') (apart : slot ≠ slot') :
    t.placeOf path ≠ t.placeOf path' := by
  rw [placeOf_slotPath t one, placeOf_slotPath t other]
  intro same
  exact apart (Slot.names_inj (List.append_cancel_left same))

end

/-- Writes the file `slot` with some content, unless one of its names is refused. -/
def write (s : Sink) (t : FileTree) (slot : Slot) (content : List UInt8) :
    Except Error Unit × FileTree :=
  match s.slotPath slot with
  | .error e => (.error e, t)
  | .ok path => writeOctets t path content

/-- The second tree comes from `t` by any number of writes of files that are somebody's `own`, each
of them refused or not. -/
inductive Writes (s : Sink) (own : Slot → Prop) (t : FileTree) : FileTree → Prop
  | nothing : Writes s own t t
  | next {t' : FileTree} (before : Writes s own t t') (slot : Slot) (owned : own slot)
      (content : List UInt8) : Writes s own t (s.write t' slot content).2

section
variable {s : Sink} {own : Slot → Prop} {t t' : FileTree} {slot : Slot} {path suffix : String}
  {content : List UInt8}

theorem snd_writeOctets (t : FileTree) (path : String) (content : List UInt8) :
    (writeOctets t path content).2 = (t.put path content).2 := by
  unfold writeOctets
  split
  · next written => rw [written]
  · next refused => rw [refused]

/-- A write of another file leaves a file as it was, whatever the new content is. -/
theorem contentAt_write {other : Slot} (named : s.slotPath slot = .ok path) (apart : slot ≠ other)
    (before : t.contentAt path = .ok content) (new : List UInt8) :
    (s.write t other new).2.contentAt path = .ok content := by
  unfold write
  split
  · exact before
  · next path' named' =>
    rw [snd_writeOctets]
    exact (FileTree.Leaves.put t path' new).contentAt (placeOf_ne t named named' apart) before

namespace Writes

/-- Any `Writes` of own files leave a file that is not one of them as it was. -/
theorem contentAt (h : s.Writes own t t') (named : s.slotPath slot = .ok path)
    (foreign : ¬own slot) (before : t.contentAt path = .ok content) :
    t'.contentAt path = .ok content := by
  induction h with
  | nothing => exact before
  | next _ other owned new ih =>
    have apart : slot ≠ other := by
      rintro rfl
      exact foreign owned
    exact contentAt_write named apart ih new

theorem value (h : s.Writes own t t') (named : s.slotPath slot = .ok path) (owned : own slot)
    (v : Option Json.Value) : s.Writes own t (writeValue t' path v).2 := by
  cases v with
  | none => exact h
  | some v =>
    have next := h.next slot owned (Text.encodeUtf8 v.prettyText)
    unfold write at next
    rwa [named] at next

/-- A report is written into files of the run, so that observers and reports write different
slots. -/
theorem report (r : Report) (s : Sink) (t : FileTree) (suffix : String) :
    s.Writes (·.owner = none) t (r.write t s suffix).2 := by
  unfold Report.write
  split
  · exact .nothing
  · next paths named =>
    obtain ⟨intervals, results⟩ := slotPath_of_reportPaths named
    have first : s.Writes (·.owner = none) t (writeValue t paths.intervals r.intervals.encode?).2 :=
      nothing.value intervals (by rfl) _
    split
    · next failed => rwa [failed] at first
    · next written =>
      rw [written] at first
      have second := first.value results rfl (some r.resultsDocument)
      split
      · next failed => rwa [failed] at second
      · next written => rwa [written] at second

theorem clusterInfo (c : ClusterInfo) (s : Sink) (t : FileTree) (suffix : String)
    (final : Timeline) (resources : Resources) :
    s.Writes (·.owner = some clusterInfoName) t (c.store t s.root suffix final resources).2 := by
  unfold ClusterInfo.store
  split
  · exact .nothing
  · next facts =>
    split
    · exact .nothing
    · next path named =>
      rw [← slotPath_artifact] at named
      exact nothing.value named (by rfl) _

end Writes

/-! ## What is certain of a sink -/

/-- What is certain of the paths of the sink `s`, and of what is written to them, whatever names the
observers choose. -/
structure KeepsApart (s : Sink) : Prop where
  /-- A file has a path exactly if its names are plain. -/
  artifact_iff : ∀ observer file,
    (∃ path, s.artifactPath observer file = .ok path) ↔ IsPlain observer ∧ IsPlain file
  file_iff : ∀ file, (∃ path, s.filePath file = .ok path) ↔ IsPlain file
  /-- A path leads from the directory of the sink to the file and nowhere else. -/
  artifactComponents : ∀ observer file path, s.artifactPath observer file = .ok path →
    components path = components s.root ++ [.name observer, .name file]
  fileComponents : ∀ file path, s.filePath file = .ok path →
    components path = components s.root ++ [.name file]
  /-- Two files have the same path exactly if they have the same names, in components and as
  texts. -/
  artifacts_same : ∀ observer file path observer' file' path',
    s.artifactPath observer file = .ok path → s.artifactPath observer' file' = .ok path' →
      (components path = components path' ↔ observer = observer' ∧ file = file') ∧
        (path = path' ↔ observer = observer' ∧ file = file')
  files_same : ∀ file path file' path', s.filePath file = .ok path → s.filePath file' = .ok path' →
    (components path = components path' ↔ file = file') ∧ (path = path' ↔ file = file')
  /-- The path of an observer's file is never that of a file of the run. -/
  never_same : ∀ observer file path file' path', s.artifactPath observer file = .ok path →
    s.filePath file' = .ok path' → components path ≠ components path'
  /-- Whatever `observer` writes, and however often, the files of other observers stay as they were,
  and so do those of the run. -/
  observerWrites : ∀ observer t t', s.Writes (·.owner = some observer) t t' →
    (∀ other file path content, other ≠ observer → s.artifactPath other file = .ok path →
      t.contentAt path = .ok content → t'.contentAt path = .ok content) ∧
    ∀ file path content, s.filePath file = .ok path →
      t.contentAt path = .ok content → t'.contentAt path = .ok content
  /-- A report does not replace the file of an observer either. -/
  reportWrites : ∀ (r : Report) t suffix observer file path content,
    s.artifactPath observer file = .ok path → t.contentAt path = .ok content →
      (r.write t s suffix).2.contentAt path = .ok content
  /-- A report that was written can still be read when observers have written their files, however
  many they write. -/
  reportStays : ∀ (r : Report) t suffix paths t' t'', r.write t s suffix = (.ok paths, t') →
    s.Writes (·.owner ≠ none) t' t'' → ∃ stream, r.intervals.encode? = some stream ∧
      t''.contentAt paths.intervals = .ok (Text.encodeUtf8 stream.prettyText) ∧
      t''.contentAt paths.results = .ok (Text.encodeUtf8 r.resultsDocument.prettyText)

/-- Every file of a sink has a path of its own, below the directory of the sink, and what is written
to it leaves the other files alone. -/
theorem keeps_files_apart (s : Sink) : KeepsApart s where
  artifact_iff observer file := by
    rw [← slotPath_artifact, exists_slotPath_iff]
    simp [Slot.names]
  file_iff file := by
    rw [← slotPath_file, exists_slotPath_iff]
    simp [Slot.names]
  artifactComponents observer file path named := by
    rw [← slotPath_artifact] at named
    exact components_slotPath named
  fileComponents file path named := by
    rw [← slotPath_file] at named
    exact components_slotPath named
  artifacts_same observer file path observer' file' path' one other := by
    rw [← slotPath_artifact] at one other
    simpa using same_path_iff one other
  files_same file path file' path' one other := by
    rw [← slotPath_file] at one other
    simpa using same_path_iff one other
  never_same observer file path file' path' one other := by
    rw [← slotPath_artifact] at one
    rw [← slotPath_file] at other
    simpa using (same_path_iff one other).1
  observerWrites observer t t' writes := by
    refine ⟨fun other file path content apart named before => ?_,
      fun file path content named before => ?_⟩
    · rw [← slotPath_artifact] at named
      exact writes.contentAt named (fun same => apart (Option.some.inj same)) before
    · rw [← slotPath_file] at named
      exact writes.contentAt named nofun before
  reportWrites r t suffix observer file path content named before := by
    rw [← slotPath_artifact] at named
    exact (Writes.report r s t suffix).contentAt named nofun before
  reportStays r t suffix paths t' t'' written writes := by
    obtain ⟨stream, encoded, intervals, results⟩ := Report.contentAt_of_write written
    -- Its files are those of the run, and no observer writes to these.
    obtain ⟨first, second⟩ := slotPath_of_reportPaths (Report.reportPaths_of_write written)
    exact ⟨stream, encoded, writes.contentAt first (fun owned => owned rfl) intervals,
      writes.contentAt second (fun owned => owned rfl) results⟩

end
end Sink
end Vigil
