import Mathlib.Tactic.ByContra
import Vigil.Proofs.Namespaces

/-!
# The summary of the cluster

The cluster-info observer writes a file that sums up the run. It can do so as soon as it was started
once, however often it is cleaned up, and what the file says about the cluster comes from the last
start. Without a start the observer refuses to write, and no file changes.

The module introduces:

* `ClusterInfo.serve`, the observer and the files after some calls;
* `ClusterInfo.Summary`, what a summary says, and `ClusterInfo.Summary.Tells`, that it is right;
* `ClusterInfo.KeepsSummary`, what is certain of a write after any calls.
-/

namespace Vigil

/-! ## What a summary says -/

theorem Resources.total_counts (r : Resources) :
    (r.counts.map Prod.snd).foldl (· + ·) 0 = r.size := by
  unfold counts size
  rw [List.map_map]
  rfl

/-- A kind is counted exactly if the snapshot has objects of it, and then with their number. -/
theorem Resources.mem_counts_iff (r : Resources) {kind : String} {n : Nat} :
    (kind, n) ∈ r.counts ↔ ∃ objects, r.ofKind? kind = some objects ∧ objects.size = n := by
  unfold counts ofKind?
  simp only [Dict.get?_eq_some_iff, List.mem_map, Prod.mk.injEq]
  constructor
  · rintro ⟨⟨k, objects⟩, entry, rfl, size⟩
    exact ⟨objects, entry, size⟩
  · rintro ⟨objects, entry, size⟩
    exact ⟨(kind, objects), entry, rfl, size⟩

theorem Resources.nodup_counts (r : Resources) : (r.counts.map Prod.fst).Nodup := by
  have keys : r.counts.map Prod.fst = r.kinds.keys := by
    unfold counts Dict.keys
    rw [List.map_map]
    rfl
  rw [keys]
  exact r.kinds.nodup_keys

theorem AuthMode.name_eq_iff {a b : AuthMode} : a.name = b.name ↔ a = b := by
  cases a <;> cases b <;> decide

/-- Which way to authenticate an access uses: its token if it has one, or else its certificate if
that is complete. -/
theorem ClusterAccess.authMode_iff (a : ClusterAccess) :
    (a.authMode = .bearerToken ↔ a.bearerToken ≠ none) ∧
      (a.authMode = .clientCertificate ↔
        a.bearerToken = none ∧ a.clientCertificate ≠ none ∧ a.clientKey ≠ none) ∧
      (a.authMode = .anonymous ↔
        a.bearerToken = none ∧ (a.clientCertificate = none ∨ a.clientKey = none)) := by
  unfold authMode
  cases a.bearerToken <;> cases a.clientCertificate <;> cases a.clientKey <;> simp

/-- The interval says that a master node was updated, by all three of its marks. -/
structure Interval.TellsUpdate (i : Interval) : Prop where
  category : i.category = nodeStateCategory
  role : i.annotations.get? "role" = some "master"
  reason : i.annotations.get? "reason" = some "NodeUpdate"

/-- The timeline `t` tells of an update exactly if some interval of it does. -/
theorem Timeline.masterUpdated_iff (t : Timeline) :
    t.masterUpdated = true ↔ ∃ i ∈ t.intervals, i.TellsUpdate := by
  have tells (i : Interval) : i.isMasterUpdate = true ↔ i.TellsUpdate := by
    unfold Interval.isMasterUpdate
    simp only [Bool.and_eq_true, beq_iff_eq]
    exact ⟨fun h => ⟨h.1.1, h.1.2, h.2⟩, fun h => ⟨⟨h.category, h.role⟩, h.reason⟩⟩
  simp only [masterUpdated, List.any_eq_true, tells]

/-- The call may write to the directory `dir`, and to no other one. -/
def Call.StaysIn (dir : String) : Call → Prop
  | .storage there .. => there = dir
  | _ => True

namespace ClusterInfo

structure Summary where
  apiUrl : String
  authMode : String
  insecureSkipTlsVerify : Bool
  masterNodeUpdated : String
  resourceCounts : List (String × Nat)
  intervalCount : Nat

def Summary.encode (s : Summary) : Json.Value :=
  .object
    [("api_url", .string s.apiUrl),
     ("auth_mode", .string s.authMode),
     ("insecure_skip_tls_verify", .bool s.insecureSkipTlsVerify),
     ("master_node_updated", .string s.masterNodeUpdated),
     ("resource_counts", .object (s.resourceCounts.map fun e => (e.1, .nat e.2))),
     ("interval_count", .nat s.intervalCount)]

/-- The summary `s` is right about an access, the final intervals and the objects of the cluster. -/
structure Summary.Tells (s : Summary) (access : ClusterAccess) (final : Timeline)
    (resources : Resources) : Prop where
  apiUrl : s.apiUrl = access.host
  bearerToken : s.authMode = "bearer_token" ↔ access.bearerToken ≠ none
  clientCertificate : s.authMode = "client_certificate" ↔
    access.bearerToken = none ∧ access.clientCertificate ≠ none ∧ access.clientKey ≠ none
  anonymous : s.authMode = "anonymous" ↔
    access.bearerToken = none ∧ (access.clientCertificate = none ∨ access.clientKey = none)
  insecureSkipTlsVerify : s.insecureSkipTlsVerify = access.insecureSkipTlsVerify
  updated : s.masterNodeUpdated = "Y" ↔ ∃ i ∈ final.intervals, i.TellsUpdate
  notUpdated : s.masterNodeUpdated = "N" ↔ ¬∃ i ∈ final.intervals, i.TellsUpdate
  intervalCount : s.intervalCount = final.intervals.length
  /-- Every kind of objects is listed once, with as many objects as there are of it. -/
  kinds : (s.resourceCounts.map Prod.fst).Nodup
  counts : ∀ kind n, (kind, n) ∈ s.resourceCounts ↔
    ∃ objects, resources.ofKind? kind = some objects ∧ objects.size = n
  total : (s.resourceCounts.map Prod.snd).foldl (· + ·) 0 = resources.size

/-- What the observer writes is a summary that is right about what it is given. -/
theorem exists_summary (access : ClusterAccess) (final : Timeline) (resources : Resources) :
    ∃ s : Summary, s.Tells access final resources ∧
      document access.facts final resources = s.encode := by
  -- Each word of the summary stands for one case, so it is enough to tell the words apart.
  obtain ⟨token, certificate, anonymous⟩ := access.authMode_iff
  have shown (updated : Bool) : ((if updated then "Y" else "N") = "Y" ↔ updated = true) ∧
      ((if updated then "Y" else "N") = "N" ↔ ¬updated = true) := by
    cases updated <;> decide
  refine ⟨⟨access.host, access.authMode.name, access.insecureSkipTlsVerify,
    if final.masterUpdated then "Y" else "N", resources.counts, final.size⟩, ?_, rfl⟩
  refine ⟨rfl, ?_, ?_, ?_, rfl, ?_, ?_, rfl, resources.nodup_counts,
    fun kind n => resources.mem_counts_iff, resources.total_counts⟩
  · exact AuthMode.name_eq_iff.trans token
  · exact AuthMode.name_eq_iff.trans certificate
  · exact AuthMode.name_eq_iff.trans anonymous
  · rw [← final.masterUpdated_iff]
    exact (shown final.masterUpdated).1
  · rw [← final.masterUpdated_iff]
    exact (shown final.masterUpdated).2

/-- The order of the intervals does not show in a summary, as it only counts and searches them. -/
theorem document_perm (facts : ClusterFacts) {final other : Timeline}
    (same : other.intervals.Perm final.intervals) (resources : Resources) :
    document facts other resources = document facts final resources := by
  have size : other.size = final.size := same.length_eq
  have updated : other.masterUpdated = final.masterUpdated := by
    rw [Bool.eq_iff_iff, Timeline.masterUpdated_iff, Timeline.masterUpdated_iff]
    simp only [same.mem_iff]
  unfold document
  rw [size, updated]

/-! ## What the calls come to -/

def summaryName (suffix : String) : String := "cluster-data" ++ suffix ++ ".json"

/-- The observer and the files after `calls`, one after the other. -/
def serve (s : ClusterInfo × FileTree) (calls : List Call) : ClusterInfo × FileTree :=
  calls.foldl (fun s call => (s.1.answer s.2 call).2) s

section
variable {c : ClusterInfo} {s : ClusterInfo × FileTree} {files : FileTree} {calls : List Call}
  {call : Call} {dir suffix path : String} {final : Timeline} {resources : Resources}

theorem facts_answer (quiet : ∀ access, call ≠ .setup access) :
    (c.answer files call).2.1.facts = c.facts := by
  cases call with
  | setup access => exact absurd rfl (quiet access)
  | collection | construction | evaluation => rfl
  | storage dir suffix final resources =>
    -- The observer comes back as it was, whether the file was written or not.
    unfold answer
    dsimp only
    split <;> rfl
  | cleanup =>
    -- A cleanup takes the access away, and not the facts about it.
    show c.cleanup.facts = c.facts
    unfold cleanup
    split <;> rfl

/-- The facts are kept however many calls follow, as long as none of them is a start. A cleanup in
particular keeps them. -/
theorem facts_serve (quiet : ∀ access, .setup access ∉ calls) :
    (serve s calls).1.facts = s.1.facts := by
  induction calls generalizing s with
  | nil => rfl
  | cons call rest ih =>
    have other : ∀ access, call ≠ .setup access := by
      rintro access rfl
      exact quiet access List.mem_cons_self
    exact (ih fun access later => quiet access (List.mem_cons_of_mem call later)).trans
      (facts_answer other)

theorem facts_of_last_start {earlier later : List Call} {access : ClusterAccess}
    (quiet : ∀ other, .setup other ∉ later) :
    (serve s (earlier ++ .setup access :: later)).1.facts = some access.facts := by
  unfold serve
  rw [List.foldl_append, List.foldl_cons]
  exact facts_serve quiet

/-- Among calls with a start there is a last one, by induction on the calls. -/
theorem exists_last_start (started : ∃ access, Call.setup access ∈ calls) :
    ∃ earlier access later, calls = earlier ++ .setup access :: later ∧
      ∀ other, Call.setup other ∉ later := by
  -- A start among the calls that come after is later than the first call.
  induction calls with
  | nil =>
    obtain ⟨access, member⟩ := started
    cases member
  | cons call rest ih =>
    by_cases again : ∃ access, Call.setup access ∈ rest
    · obtain ⟨earlier, access, later, same, quiet⟩ := ih again
      exact ⟨call :: earlier, access, later, by rw [same]; rfl, quiet⟩
    · obtain ⟨access, member⟩ := started
      rcases List.mem_cons.1 member with rfl | later
      · exact ⟨[], access, rest, rfl, fun other later => again ⟨other, later⟩⟩
      · exact absurd ⟨access, later⟩ again

/-! ## Files that the observer writes -/

/-- The observer refuses to write before it was started, and touches no file. -/
theorem answer_storage_of_new (remembers : c.facts = none) :
    c.answer files (.storage dir suffix final resources) =
      (.failed (.observerFailed "cluster access was never recorded: StartCollection did not run"),
        c, files) := by
  simp only [answer, store, remembers]

theorem answer_storage_of_facts {facts : ClusterFacts} (remembers : c.facts = some facts)
    (named : (Sink.mk dir).artifactPath clusterInfoName (summaryName suffix) = .ok path)
    (takes : files.Takes path) :
    ∃ files', c.answer files (.storage dir suffix final resources) = (.returned {}, c, files') ∧
      files'.contentAt path =
        .ok (Text.encodeUtf8 (document facts final resources).prettyText) := by
  have own := named
  obtain ⟨plain, rfl⟩ := Sink.artifactPath_eq_ok named
  obtain ⟨files', puts, read⟩ := takes.put_eq plain.isName
    (Text.encodeUtf8 (document facts final resources).prettyText)
  refine ⟨files', ?_, read⟩
  unfold summaryName at own puts
  simp only [answer, store, remembers, own, writeValue, writeOctets, puts]

theorem snd_store_cases (c : ClusterInfo) (files : FileTree) (dir suffix : String)
    (final : Timeline) (resources : Resources) :
    (c.store files dir suffix final resources).2 = files ∨
      ∃ path content,
        (Sink.mk dir).artifactPath clusterInfoName (summaryName suffix) = .ok path ∧
        (c.store files dir suffix final resources).2 = (files.put path content).2 := by
  unfold store
  split
  · exact .inl rfl
  · split
    · exact .inl rfl
    · next path named => exact .inr ⟨path, _, named, Sink.snd_writeOctets files path _⟩

theorem files_answer_storage : (c.answer files (.storage dir suffix final resources)).2.2 =
    (c.store files dir suffix final resources).2 := by
  unfold answer
  dsimp only
  split
  · next written => rw [written]
  · next refused => rw [refused]

/-- A file of the observer can still be written after a call that writes to the same directory or to
none. -/
theorem takes_answer {file : String}
    (named : (Sink.mk dir).artifactPath clusterInfoName file = .ok path)
    (stays : call.StaysIn dir) (takes : files.Takes path) :
    (c.answer files call).2.2.Takes path := by
  cases call with
  | setup | collection | construction | evaluation | cleanup => exact takes
  | storage there suffix final resources =>
    obtain rfl : there = dir := stays
    rw [files_answer_storage]
    rcases c.snd_store_cases files there suffix final resources with
      same | ⟨other, content, also, puts⟩
    · rwa [same]
    · -- Both files lie in the directory of the observer, which is there after the first write.
      obtain ⟨plain, rfl⟩ := Sink.artifactPath_eq_ok named
      obtain ⟨beside, rfl⟩ := Sink.artifactPath_eq_ok also
      rw [puts]
      exact takes.after_put plain.isName beside.isName content

theorem takes_serve {file : String}
    (named : (Sink.mk dir).artifactPath clusterInfoName file = .ok path)
    (stay : ∀ call ∈ calls, call.StaysIn dir) (takes : s.2.Takes path) :
    (serve s calls).2.Takes path := by
  induction calls generalizing s with
  | nil => exact takes
  | cons call rest ih =>
    obtain ⟨first, others⟩ := List.forall_mem_cons.1 stay
    exact ih others (takes_answer named first takes)

/-! ## What is certain of a write -/

/-- How a write after `calls` ends, what the observer remembers then, and the files. -/
def writeAfter (files : FileTree) (calls : List Call) (dir suffix : String) (final : Timeline)
    (resources : Resources) : Ending × ClusterInfo × FileTree :=
  (serve ({}, files) calls).1.answer (serve ({}, files) calls).2
    (.storage dir suffix final resources)

/-- Without a start the write fails and changes nothing, wherever it is to go. -/
theorem writeAfter_of_quiet (quiet : ∀ access, Call.setup access ∉ calls) :
    writeAfter files calls dir suffix final resources =
      (.failed (.observerFailed "cluster access was never recorded: StartCollection did not run"),
        serve ({}, files) calls) :=
  answer_storage_of_new (facts_serve quiet)

/-- After a start the file holds the facts of the last one, however many calls follow it. -/
theorem writeAfter_of_start {earlier later : List Call} {access : ClusterAccess}
    (named : (Sink.mk dir).artifactPath clusterInfoName (summaryName suffix) = .ok path)
    (stay : ∀ call ∈ calls, call.StaysIn dir) (writable : files.Takes path)
    (cut : calls = earlier ++ .setup access :: later)
    (quiet : ∀ other, Call.setup other ∉ later) :
    ∃ c files', writeAfter files calls dir suffix final resources = (.returned {}, c, files') ∧
      files'.contentAt path =
        .ok (Text.encodeUtf8 (document access.facts final resources).prettyText) := by
  have takes := takes_serve (s := ({}, files)) named stay writable
  have remembers : (serve ({}, files) calls).1.facts = some access.facts := by
    rw [cut]
    exact facts_of_last_start quiet
  obtain ⟨files', answered, read⟩ := answer_storage_of_facts remembers named takes
  exact ⟨_, files', answered, read⟩

theorem leaves_writeAfter
    (named : (Sink.mk dir).artifactPath clusterInfoName (summaryName suffix) = .ok path) :
    (serve ({}, files) calls).2.Leaves path
      (writeAfter files calls dir suffix final resources).2.2 := by
  unfold writeAfter
  rw [files_answer_storage]
  rcases snd_store_cases (serve ({}, files) calls).1 (serve ({}, files) calls).2 dir suffix final
    resources with same | ⟨other, content, also, puts⟩
  · rw [same]
    exact .refl _ path
  · obtain rfl : path = other := Except.ok.inj (named.symm.trans also)
    rw [puts]
    exact .put _ path content

/-- What is certain of a write of the summary after `calls`, where `path` is the one that `dir` and
`suffix` lead to. -/
structure KeepsSummary (files : FileTree) (calls : List Call) (dir suffix : String)
    (final : Timeline) (resources : Resources) (path : String) : Prop where
  /-- The path is that of one file below the directory. -/
  place : Path.components path =
    Path.components dir ++ [.name clusterInfoName, .name (summaryName suffix)]
  /-- The write returns exactly if the observer was started before. -/
  returns_iff : (writeAfter files calls dir suffix final resources).1 = .returned {} ↔
    ∃ access, Call.setup access ∈ calls
  /-- Otherwise it fails, and all files stay as they were. -/
  refused : (∀ access, Call.setup access ∉ calls) →
    (writeAfter files calls dir suffix final resources).1 = .failed (.observerFailed
      "cluster access was never recorded: StartCollection did not run") ∧
    (writeAfter files calls dir suffix final resources).2.2 = (serve ({}, files) calls).2
  /-- No other file is changed in any case. -/
  leaves : (serve ({}, files) calls).2.Leaves path
    (writeAfter files calls dir suffix final resources).2.2
  /-- The file holds a summary that is right about the access of the last start. -/
  holds : ∀ earlier access later, calls = earlier ++ .setup access :: later →
    (∀ other, Call.setup other ∉ later) → ∃ s : Summary, s.Tells access final resources ∧
      (writeAfter files calls dir suffix final resources).2.2.contentAt path =
        .ok (Text.encodeUtf8 s.encode.prettyText)
  /-- The order of the intervals does not matter. -/
  order : ∀ other : Timeline, other.intervals.Perm final.intervals →
    writeAfter files calls dir suffix other resources =
      writeAfter files calls dir suffix final resources

/-- The summary can be written exactly after a start, however often the observer was cleaned up, and
it tells of the last start. -/
theorem summary_after_start {files : FileTree} {calls : List Call} {dir suffix path : String}
    (named : (Sink.mk dir).artifactPath clusterInfoName (summaryName suffix) = .ok path)
    (stay : ∀ call ∈ calls, call.StaysIn dir) (writable : files.Takes path) (final : Timeline)
    (resources : Resources) : KeepsSummary files calls dir suffix final resources path := by
  exact
    { place := by
        rw [← Sink.slotPath_artifact] at named
        exact Sink.components_slotPath named
      returns_iff := by
        constructor
        · intro returned
          by_contra never
          rw [writeAfter_of_quiet fun access member => never ⟨access, member⟩] at returned
          cases returned
        · intro started
          -- Only the last of the starts matters.
          obtain ⟨earlier, access, later, cut, quiet⟩ := exists_last_start started
          obtain ⟨c, files', written, -⟩ := writeAfter_of_start named stay writable cut quiet
          rw [written]
      refused := fun quiet => by
        rw [writeAfter_of_quiet quiet]
        exact ⟨rfl, rfl⟩
      leaves := leaves_writeAfter named
      holds := fun earlier access later cut quiet => by
        obtain ⟨s, tells, same⟩ := exists_summary access final resources
        obtain ⟨c, files', written, read⟩ := writeAfter_of_start named stay writable cut quiet
        refine ⟨s, tells, ?_⟩
        rw [written, ← same]
        exact read
      order := fun other same => by
        unfold writeAfter
        simp only [answer, store, document_perm _ same] }

end

/-- The observer is cleaned up twice after its start, and writes another file in between. -/
theorem summary_after_start_of_two_cleanups :
    let access : ClusterAccess := { host := "https://cluster.example" }
    let calls : List Call :=
      [.setup access, .cleanup, .storage "out" "_early" .empty .empty, .cleanup]
    KeepsSummary {} calls "out" "_late" .empty .empty "out/cluster-info/cluster-data_late.json" ∧
      (writeAfter {} calls "out" "_late" .empty .empty).1 = .returned {} := by
  intro access calls
  have stay : ∀ call ∈ calls, call.StaysIn "out" := by simp [calls, Call.StaysIn]
  have named : (Sink.mk "out").artifactPath clusterInfoName (summaryName "_late") =
      .ok "out/cluster-info/cluster-data_late.json" := rfl
  have writable : ({} : FileTree).Takes "out/cluster-info/cluster-data_late.json" := by
    decide +kernel
  have keeps := summary_after_start named stay writable .empty .empty
  exact ⟨keeps, keeps.returns_iff.2 ⟨access, List.mem_cons_self⟩⟩

end ClusterInfo
end Vigil
