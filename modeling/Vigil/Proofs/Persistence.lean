import Vigil.Cluster
import Vigil.Proofs.Json.Decoding
import Vigil.Proofs.Json.Yielding
import Vigil.Proofs.Reports
import Vigil.Proofs.Utf8
import Vigil.Record
import Vigil.Resources
import Vigil.Window

/-!
# Persisted data reads back

What is written of intervals, windows, records, accesses and snapshots is read back as it was, from
either written form. Only an instant before 1970 keeps a value from being written, and whatever a
decoder accepts can be written and read back again, although a text may lack fields and may have
more nanoseconds than a second.

The module introduces:

* `Timestamp.OnClock`, the instants from 1970 on that a clock shows;
* `Json.Written`, a written form that is read back;
* `Persists`, what it means that the values of a type persist;
* `FileTree.read?`, what a decoder reads from a file.
-/

namespace Vigil

open Json

/-- The value `v` is a written form of `a` without binary numbers, with so many `levels` at most,
that `decode` reads back. -/
structure Json.Written {α : Type} (decode : Decoder α) (v : Value) (a : α) (levels : Nat) :
    Prop where
  whole : v.Whole
  nests : v.depth ≤ levels
  reads : decode.Reads v a

theorem Json.Value.depth_object_le {members : List (String × Value)} {n : Nat}
    (all : ∀ m ∈ members, m.2.depth ≤ n) : (Value.object members).depth ≤ n + 1 := by
  rw [← Nat.lt_succ_iff, Value.depth_object_lt_iff]
  exact ⟨by omega, fun m h => Nat.lt_succ_of_le (all m h)⟩

theorem Json.Value.depth_array_le {items : List Value} {n : Nat}
    (all : ∀ v ∈ items, v.depth ≤ n) : (Value.array items).depth ≤ n + 1 := by
  rw [← Nat.lt_succ_iff, Value.depth_array_lt_iff]
  exact ⟨by omega, fun v h => Nat.lt_succ_of_le (all v h)⟩

/-! ## Instants -/

namespace Timestamp

def lastSecond : Int := 9223372036854775807

/-- An instant from 1970 on that a clock of the host can show: the instants that have a written form
which is read back. -/
structure OnClock (t : Timestamp) : Prop where
  dated : epoch ≤ t
  bounded : t.secs ≤ lastSecond

variable {t : Timestamp}

theorem written (clock : t.OnClock) : ∃ v, t.encode? = some v ∧ Written decode v t 1 := by
  have dated : 0 ≤ t.nanos := clock.dated
  have bounded : t.secs ≤ 9223372036854775807 := clock.bounded
  have below := t.subsec_lt
  obtain ⟨secs, same⟩ := Int.eq_ofNat_of_zero_le (show 0 ≤ t.secs by unfold Timestamp.secs; omega)
  refine ⟨.object [("secs_since_epoch", .nat secs), ("nanos_since_epoch", .nat t.subsec)], ?_, ?_⟩
  · rw [encode?, if_neg (by omega), same]
    rfl
  · refine ⟨.object ?_, Value.depth_object_le ?_, ?_⟩
    · simpa using ⟨.number secs, .number t.subsec⟩
    · simp [Value.nat, Value.depth]
    · -- The nanoseconds are less than a second, so nothing carries over.
      have nothing : t.subsec / 1000000000 = 0 := by omega
      refine Decoder.Reads.bind (a := (secs, t.subsec))
        (Decoder.reads_record (d := ⟨some secs, some t.subsec⟩) ?_ ?_) fun rest => ?_
      · exact .field rfl rfl (Field.reads_of (Decoder.reads_natural (by omega) (by decide)) _)
          (.field rfl rfl (Field.reads_of (Decoder.reads_natural (by omega) (by decide)) _)
            (.nil _))
      · have fits : secs + t.subsec / 1000000000 ≤ 18446744073709551615 := by omega
        simp [fits]
      · have fits : secs + t.subsec / 1000000000 ≤ 9223372036854775807 := by omega
        have back : ofParts secs t.subsec = t := by
          rw [← same]
          exact ofParts_secs_subsec t
        simp [fits, back]

/-- Whatever instant `decode` reads, a clock shows it. -/
theorem yields_onClock : decode.Yields fun _ t => t.OnClock := by
  intro depth text t rest room done
  obtain ⟨⟨⟨secs, nanos⟩, after⟩, -, done⟩ := exists_of_bind_eq_ok done
  simp only at done
  split at done
  · cases done
    refine ⟨?_, ?_⟩
    · change (0 : Int) ≤ _
      simp only [ofParts]
      omega
    · simp only [Timestamp.secs, ofParts, lastSecond]
      omega
  · cases done

example : (decode.readAll "[1, 1500000000]").toOption = some ⟨2500000000⟩ := by
  decide +kernel

end Timestamp

/-! ## Values with instants -/

namespace Interval

/-- The instants of the interval `i`: that of its start, and that of its end if there is one. -/
def times (i : Interval) : List Timestamp := i.start :: i.finish.toList

theorem written_finish (finish : Option Timestamp) (clock : ∀ t ∈ finish, t.OnClock) :
    ∃ v, encodeFinish? finish = some v ∧
      Written (.optional Timestamp.decode) v finish 1 := by
  cases finish with
  | none => exact ⟨.null, rfl, .null, by simp [Value.depth], Decoder.reads_optional_none⟩
  | some t =>
    obtain ⟨v, encoded, written⟩ := t.written (clock t rfl)
    have other : v ≠ .null := by
      rintro rfl
      unfold Timestamp.encode? at encoded
      split at encoded <;> cases encoded
    exact ⟨v, encoded, written.whole, written.nests,
      Decoder.reads_optional_some written.reads written.whole other⟩

theorem written_textObject (d : Dict String) :
    Written (.dict .text) (textObject d) d 1 where
  whole := .object fun m h => by
    obtain ⟨e, -, rfl⟩ := List.mem_map.1 h
    exact .string e.2
  nests := Value.depth_object_le fun m h => by
    obtain ⟨e, -, rfl⟩ := List.mem_map.1 h
    simp [Value.depth]
  reads := Decoder.reads_dict Value.string fun e _ => Decoder.reads_text e.2

variable {i : Interval}

theorem written (clock : ∀ t ∈ i.times, t.OnClock) :
    ∃ v, i.encode? = some v ∧ Written decode v i 2 := by
  obtain ⟨first, last⟩ := List.forall_mem_cons.1 clock
  obtain ⟨start, encoded, opening⟩ := i.start.written first
  obtain ⟨finish, encoded', closing⟩ := written_finish i.finish
    fun t h => last t (by simpa using h)
  have texts := written_textObject i.annotations
  refine ⟨_, by rw [encode?, encoded, encoded']; rfl, .object ?_, Value.depth_object_le ?_, ?_⟩
  · simpa using ⟨opening.whole, closing.whole, .string _, .string _, .string _, texts.whole⟩
  · have one := opening.nests
    have two := closing.nests
    have three := texts.nests
    simp [Value.depth]
    omega
  · -- All members are read, one after the other, into a draft that is complete.
    refine Decoder.reads_record (d := ⟨some i.start, some i.finish, some i.category,
      some i.source, some i.message, some i.annotations⟩) ?_ rfl
    exact .field rfl rfl (Field.reads_of opening.reads _)
      (.field rfl rfl (Field.reads_of closing.reads _)
        (.field rfl rfl (Field.reads_of (Decoder.reads_text _) _)
          (.field rfl rfl (Field.reads_of (Decoder.reads_text _) _)
            (.field rfl rfl (Field.reads_of (Decoder.reads_text _) _)
              (.field rfl rfl (Field.reads_of texts.reads _) (.nil _))))))

theorem yields_onClock : decode.Yields fun _ i => ∀ t ∈ i.times, t.OnClock := by
  refine Decoder.yields_record (I := fun draft : Draft =>
    (∀ t ∈ draft.start, t.OnClock) ∧ ∀ finish ∈ draft.finish, ∀ t ∈ finish, t.OnClock)
    ⟨fun t h => (nomatch h), fun finish h => nomatch h⟩ ?_ ?_
  · intro f member draft holds
    simp only [List.mem_cons, List.not_mem_nil, or_false] at member
    -- Only the two ends bring instants into the draft.
    rcases member with rfl | rfl | rfl | rfl | rfl | rfl
    · exact Timestamp.yields_onClock.field fun t clock => ⟨by rintro _ ⟨⟩; exact clock, holds.2⟩
    · exact Timestamp.yields_onClock.optional.field fun finish clock =>
        ⟨holds.1, by rintro _ ⟨⟩; exact clock⟩
    all_goals
      exact Decoder.Yields.field (P := fun _ => True) (fun _ _ _ _ _ _ => trivial) fun _ _ => holds
  · intro draft i holds complete
    simp only [Draft.complete?, Option.bind_eq_bind, Option.bind_eq_some_iff] at complete
    obtain ⟨start, begun, category, -, source, -, message, -, same⟩ := complete
    cases same
    refine List.forall_mem_cons.2 ⟨holds.1 start begun, fun t h => ?_⟩
    cases ended : draft.finish with
    | none => simp [ended] at h
    | some finish =>
      rw [ended] at h
      exact holds.2 finish ended t (by simpa using h)

end Interval

namespace Timeline

def times (t : Timeline) : List Timestamp := t.intervals.flatMap Interval.times

variable {t : Timeline}

theorem written (clock : ∀ u ∈ t.times, u.OnClock) :
    ∃ v, t.encode? = some v ∧ Written decode v t 3 := by
  have each : ∀ i ∈ t.intervals, ∀ u ∈ i.times, u.OnClock := fun i member u h =>
    clock u (List.mem_flatMap.2 ⟨i, member, h⟩)
  obtain ⟨values, encoded, read, all⟩ : ∃ values, t.intervals.mapM Interval.encode? = some values ∧
      List.Forall₂ Interval.decode.Reads values t.intervals ∧
      ∀ v ∈ values, v.Whole ∧ v.depth ≤ 2 := by
    generalize t.intervals = is at each
    induction is with
    | nil => exact ⟨[], rfl, .nil, fun v h => absurd h List.not_mem_nil⟩
    | cons i is ih =>
      obtain ⟨here, each⟩ := List.forall_mem_cons.1 each
      obtain ⟨v, encoded, written⟩ := i.written here
      obtain ⟨values, rest, read, all⟩ := ih each
      exact ⟨v :: values, by simp [encoded, rest], .cons written.reads read,
        List.forall_mem_cons.2 ⟨⟨written.whole, written.nests⟩, all⟩⟩
  refine ⟨.array values, by rw [encode?, encoded]; rfl, .array fun v h => (all v h).1,
    Value.depth_array_le fun v h => (all v h).2, ?_⟩
  exact (Decoder.reads_list read fun v h => (all v h).1).map Timeline.mk

theorem yields_onClock : decode.Yields fun _ t => ∀ u ∈ t.times, u.OnClock := by
  refine Interval.yields_onClock.list.map Timeline.mk fun depth is clock u h => ?_
  obtain ⟨i, member, h⟩ := List.mem_flatMap.1 h
  exact clock i member u h

end Timeline

namespace Window

def times (w : Window) : List Timestamp := [w.opened, w.closed]

theorem written {w : Window} (clock : ∀ t ∈ w.times, t.OnClock) :
    ∃ v, w.encode? = some v ∧ Written decode v w 2 := by
  obtain ⟨opened, encoded, first⟩ := w.opened.written (clock _ (by simp [times]))
  obtain ⟨closed, encoded', last⟩ := w.closed.written (clock _ (by simp [times]))
  refine ⟨_, by rw [encode?, encoded, encoded']; rfl, .object ?_, Value.depth_object_le ?_, ?_⟩
  · simpa using ⟨first.whole, last.whole⟩
  · simpa using ⟨first.nests, last.nests⟩
  · refine Decoder.reads_record (d := ⟨some w.opened, some w.closed⟩) ?_ rfl
    exact .field rfl rfl (Field.reads_of first.reads _)
      (.field rfl rfl (Field.reads_of last.reads _) (.nil _))

theorem yields_onClock : decode.Yields fun _ w => ∀ t ∈ w.times, t.OnClock := by
  refine Decoder.yields_record (I := fun draft : Draft =>
    (∀ t ∈ draft.opened, t.OnClock) ∧ ∀ t ∈ draft.closed, t.OnClock)
    ⟨fun t h => (nomatch h), fun t h => nomatch h⟩ ?_ ?_
  · intro f member draft holds
    simp only [List.mem_cons, List.not_mem_nil, or_false] at member
    rcases member with rfl | rfl
    · exact Timestamp.yields_onClock.field fun t clock => ⟨by rintro _ ⟨⟩; exact clock, holds.2⟩
    · exact Timestamp.yields_onClock.field fun t clock => ⟨holds.1, by rintro _ ⟨⟩; exact clock⟩
  · intro draft w holds complete
    simp only [Option.bind_eq_bind, Option.bind_eq_some_iff] at complete
    obtain ⟨opened, first, closed, last, same⟩ := complete
    cases same
    simpa [times] using ⟨holds.1 opened first, holds.2 closed last⟩

end Window

/-! ## Values without instants -/

namespace Record

theorem forall_optionalMember {name : String} {s : Option String} {P : Value → Prop}
    (text : ∀ s, P (.string s)) : ∀ m ∈ optionalMember name s, P m.2 := by
  cases s with
  | none => exact fun m h => absurd h List.not_mem_nil
  | some s => simpa [optionalMember] using text s

theorem forall_members (r : Record) {P : Value → Prop} (text : ∀ s, P (.string s)) :
    ∀ m ∈ [("name", Value.string r.name), ("owner", .string r.owner), ("source", .string r.source),
      ("outcome", .string r.verdict.name)] ++ optionalMember "failure" r.failure
        ++ optionalMember "output" r.output, P m.2 := by
  intro m h
  rcases List.mem_append.1 h with h | h
  · rcases List.mem_append.1 h with h | h
    · simp only [List.mem_cons, List.not_mem_nil, or_false] at h
      rcases h with rfl | rfl | rfl | rfl <;> exact text _
    · exact forall_optionalMember text m h
  · exact forall_optionalMember text m h

/-- The draft `d` with a text that may have been left out, which `set` puts in. -/
def Draft.withOptional (d : Draft) (set : Draft → Option String → Draft) (s : Option String) :
    Draft :=
  match s with
  | none => d
  | some s => set d (some s)

/-- A text that may be left out is read back, or stays away, as a member of an object. -/
theorem fills_optionalMember {fields : List (Json.Field Draft)} {name : String}
    {look : Draft → Option (Option String)} {set : Draft → Option String → Draft}
    (found : fields.find? (fun f => f.name == name) =
      some (.of name (.optional .text) look set)) {draft : Draft} (unset : look draft = none)
    (s : Option String) :
    Fills fields false draft (optionalMember name s) (draft.withOptional set s) := by
  cases s with
  | none => exact .nil draft
  | some s =>
    refine .field found ?_ (Field.reads_of (Decoder.reads_optional (some s)) draft) (.nil _)
    simp [Field.of, unset]

theorem written (r : Record) : Written decode r.encode r 1 where
  whole := .object (r.forall_members .string)
  nests := Value.depth_object_le (r.forall_members (P := fun v => v.depth ≤ 0) fun s => by
    simp [Value.depth])
  reads := by
    -- The optional members are filled after the others, if they were written at all.
    let first : Draft := ⟨some r.name, some r.owner, some r.source, some r.verdict, none, none⟩
    let second : Draft := first.withOptional (fun d a => { d with failure := some a }) r.failure
    let third : Draft := second.withOptional (fun d a => { d with output := some a }) r.output
    have unset : second.output = none := by
      show (first.withOptional _ r.failure).output = none
      cases r.failure <;> rfl
    have complete : third.complete? = some r := by
      obtain ⟨name, owner, source, verdict, failure, output⟩ := r
      cases failure <;> cases output <;> rfl
    refine Decoder.reads_record (d := third) (.append (e := second)
      (.append (e := first) ?_ (fills_optionalMember rfl rfl r.failure))
      (fills_optionalMember rfl unset r.output)) complete
    exact .field rfl rfl (Field.reads_of (Decoder.reads_text r.name) _)
      (.field rfl rfl (Field.reads_of (Decoder.reads_text r.owner) _)
        (.field rfl rfl (Field.reads_of (Decoder.reads_text r.source) _)
          (.field rfl rfl (Field.reads_of (Decoder.reads_choice r.verdict.ofName?_name) _)
            (.nil _))))

end Record

theorem ClusterAccess.written (a : ClusterAccess) : Written decode a.encode a 1 where
  whole := by
    have optional (s : Option String) : (Value.optional s).Whole := by
      cases s with
      | none => exact .null
      | some s => exact .string s
    exact .object (by
      simpa using ⟨.string _, optional _, optional _, optional _, optional _, .bool _⟩)
  nests := by
    have optional (s : Option String) : (Value.optional s).depth = 0 := by
      cases s <;> simp [Value.optional, Value.depth]
    exact Value.depth_object_le (n := 0) (by simp [optional, Value.depth])
  reads := by
    refine Decoder.reads_record (d := ⟨some a.host, some a.bearerToken,
      some a.clientCertificate, some a.clientKey, some a.certificateAuthority,
      some a.insecureSkipTlsVerify⟩) ?_ rfl
    exact .field rfl rfl (Field.reads_of (Decoder.reads_text _) _)
      (.field rfl rfl (Field.reads_of (Decoder.reads_optional _) _)
        (.field rfl rfl (Field.reads_of (Decoder.reads_optional _) _)
          (.field rfl rfl (Field.reads_of (Decoder.reads_optional _) _)
            (.field rfl rfl (Field.reads_of (Decoder.reads_optional _) _)
              (.field rfl rfl (Field.reads_of (Decoder.reads_truth _) _) (.nil _))))))

/-! ## Snapshots -/

namespace Resources

/-- No object of the snapshot `r` has a binary number. -/
def Whole (r : Resources) : Prop := ∀ kind ∈ r.kinds.entries, ∀ e ∈ kind.2.entries, e.2.Whole

/-- The objects of the snapshot `r` are sorted, with whole numbers of 64 bits, and nothing nests too
deep in its written form: what a reader of its text can come to. -/
structure Fits (r : Resources) : Prop where
  regular : ∀ kind ∈ r.kinds.entries, ∀ e ∈ kind.2.entries, e.2.Regular
  nests : r.encode.depth < nestingLimit

variable {r : Resources}

theorem written (whole : r.Whole) (fits : r.Fits) :
    Written decode r.encode r (nestingLimit - 1) where
  whole := .object fun m h => by
    obtain ⟨kind, member, rfl⟩ := List.mem_map.1 h
    exact .object (whole kind member)
  nests := Nat.le_sub_one_of_lt fits.nests
  reads := by
    refine (Decoder.reads_dict Value.ofDict fun kind member => ?_).map Resources.mk
    have objects := Decoder.reads_dict (d := kind.2) id fun e h =>
      Decoder.reads_value (fits.regular kind member e h) (whole kind member e h)
    simpa [Value.ofDict] using objects

/-- Whatever snapshot is read nests no deeper than its text, so it `Fits`. -/
theorem yields_fits : decode.Yields fun depth r =>
    (∀ kind ∈ r.kinds.entries, ∀ e ∈ kind.2.entries, e.2.Regular) ∧ r.encode.depth < depth := by
  refine Decoder.yields_value.dict.dict.map Resources.mk fun depth d holds => ?_
  obtain ⟨deep, each⟩ := holds
  refine ⟨fun kind member e h => ((each kind member).2 e h).1, ?_⟩
  refine Value.depth_object_lt_iff.2 ⟨deep, fun m h => ?_⟩
  obtain ⟨kind, member, rfl⟩ := List.mem_map.1 h
  obtain ⟨deep', each'⟩ := each kind member
  exact Value.depth_object_lt_iff.2 ⟨deep', fun e h => (each' e h).2⟩

end Resources

/-! ## Whole texts -/

section Persists

variable {α : Type}

/-- The value `a` has a written form, and both texts of it, compact and pretty, are read back. -/
def ReadsBack (encode? : α → Option Value) (decode : Decoder α) (a : α) : Prop :=
  ∃ v, encode? a = some v ∧ decode.readAll v.compactText = .ok a ∧
    decode.readAll v.prettyText = .ok a

/-- The values of a type persist: those with an instant before 1970 are refused before any file is
touched, all others are read back, and so is everything that is read. Only values that are `Whole`,
without binary numbers, are concerned, and only values that are kept within what `Fits`. -/
structure Persists (encode? : α → Option Value) (decode : Decoder α) (times : α → List Timestamp)
    (Whole Fits : α → Prop) : Prop where
  refused_iff : ∀ a, encode? a = none ↔ ∃ t ∈ times a, ¬Timestamp.epoch ≤ t
  untouched : ∀ a (files : FileTree) path, (∃ t ∈ times a, ¬Timestamp.epoch ≤ t) →
    writeValue files path (encode? a) =
      (.error (.unwritable path Timestamp.unwritableReason), files)
  read_back : ∀ a, (∀ t ∈ times a, t.OnClock) → Whole a → Fits a → ReadsBack encode? decode a
  stable : ∀ text a, decode.readAll text = .ok a → Whole a → ReadsBack encode? decode a

def Always (_ : α) : Prop := True

variable {encode? : α → Option Value} {decode : Decoder α} {times : α → List Timestamp}
  {Whole Fits : α → Prop}

theorem Json.Written.readsBack {v : Value} {a : α} {levels : Nat}
    (written : Written decode v a levels) (encoded : encode? a = some v)
    (shallow : levels < nestingLimit) : ReadsBack encode? decode a := by
  obtain ⟨compact, pretty⟩ := written.reads.readAll (Nat.lt_of_le_of_lt written.nests shallow)
  exact ⟨v, encoded, compact, pretty⟩

/-- Values persist if those with the instants of a clock are read back, others are refused, and
whatever is read has the instants of a clock. -/
theorem Persists.of_written
    (dated : ∀ a, (encode? a).isSome = true ↔ ∀ t ∈ times a, Timestamp.epoch ≤ t)
    (back : ∀ a, (∀ t ∈ times a, t.OnClock) → Whole a → Fits a → ReadsBack encode? decode a)
    (accepted : ∀ text a, decode.readAll text = .ok a → (∀ t ∈ times a, t.OnClock) ∧ Fits a) :
    Persists encode? decode times Whole Fits := by
  have refused : ∀ a, encode? a = none ↔ ∃ t ∈ times a, ¬Timestamp.epoch ≤ t := by
    intro a
    rw [← Option.not_isSome_iff_eq_none, dated a]
    simp
  refine ⟨refused, fun a files path early => ?_, back, fun text a done whole => ?_⟩
  · rw [(refused a).2 early, writeValue]
  · obtain ⟨clock, fits⟩ := accepted text a done
    exact back a clock whole fits

theorem Persists.of_timeless {encode : α → Value}
    (back : ∀ a, Whole a → Fits a → ReadsBack (fun a => some (encode a)) decode a)
    (accepted : ∀ text a, decode.readAll text = .ok a → Fits a) :
    Persists (fun a => some (encode a)) decode (fun _ => []) Whole Fits :=
  .of_written (fun a => by simp) (fun a _ => back a)
    fun text a done => ⟨fun t h => absurd h List.not_mem_nil, accepted text a done⟩

end Persists

theorem Interval.dated_iff {i : Interval} : i.Dated ↔ ∀ t ∈ i.times, Timestamp.epoch ≤ t := by
  simp only [times, List.forall_mem_cons, Option.mem_toList]
  exact ⟨fun h => ⟨h.start, h.finish⟩, fun h => ⟨h.1, h.2⟩⟩

theorem Timeline.dated_iff {t : Timeline} : t.Dated ↔ ∀ u ∈ t.times, Timestamp.epoch ≤ u := by
  simp only [Dated, times, List.mem_flatMap, Interval.dated_iff]
  exact ⟨fun h u ⟨i, member, held⟩ => h i member u held,
    fun h i member u held => h u ⟨i, member, held⟩⟩

theorem Window.isSome_encode?_iff (w : Window) :
    w.encode?.isSome = true ↔ ∀ t ∈ w.times, Timestamp.epoch ≤ t := by
  have both : w.encode?.isSome = true ↔
      w.opened.encode?.isSome = true ∧ w.closed.encode?.isSome = true := by
    unfold encode?
    cases w.opened.encode? <;> cases w.closed.encode? <;> simp
  rw [both, Timestamp.isSome_encode?_iff, Timestamp.isSome_encode?_iff]
  simp [times]

theorem Interval.persists :
    Persists Interval.encode? Interval.decode Interval.times Always Always := by
  refine .of_written (fun i => ?_) (fun i clock _ _ => ?_) fun text i done => ?_
  · rw [i.isSome_encode?_iff, dated_iff]
  · obtain ⟨v, encoded, written⟩ := i.written clock
    exact written.readsBack encoded (by decide)
  · exact ⟨Interval.yields_onClock.readAll done, trivial⟩

theorem Timeline.persists :
    Persists Timeline.encode? Timeline.decode Timeline.times Always Always := by
  refine .of_written (fun t => ?_) (fun t clock _ _ => ?_) fun text t done => ?_
  · rw [t.isSome_encode?_iff, dated_iff]
  · obtain ⟨v, encoded, written⟩ := t.written clock
    exact written.readsBack encoded (by decide)
  · exact ⟨Timeline.yields_onClock.readAll done, trivial⟩

theorem Window.persists : Persists Window.encode? Window.decode Window.times Always Always := by
  refine .of_written Window.isSome_encode?_iff (fun w clock _ _ => ?_) fun text w done => ?_
  · obtain ⟨v, encoded, written⟩ := w.written clock
    exact written.readsBack encoded (by decide)
  · exact ⟨Window.yields_onClock.readAll done, trivial⟩

theorem Record.persists :
    Persists (fun r => some (Record.encode r)) Record.decode (fun _ => []) Always Always :=
  .of_timeless (fun r _ _ => r.written.readsBack rfl (by decide)) fun _ _ _ => trivial

theorem ClusterAccess.persists : Persists (fun a => some (ClusterAccess.encode a))
    ClusterAccess.decode (fun _ => []) Always Always :=
  .of_timeless (fun a _ _ => a.written.readsBack rfl (by decide)) fun _ _ _ => trivial

theorem Resources.persists : Persists (fun r => some (Resources.encode r)) Resources.decode
    (fun _ => []) Resources.Whole Resources.Fits := by
  refine .of_timeless (fun r whole fits => ?_) fun text r done => ?_
  · exact (r.written whole fits).readsBack rfl (by decide)
  · obtain ⟨regular, nests⟩ := Resources.yields_fits.readAll done
    exact ⟨regular, nests⟩

/-! ## Files of a report -/

/-- What `decode` reads from the file at `path`: its octets as a text, and the text as a whole. -/
def FileTree.read? {α : Type} (t : FileTree) (path : String) (decode : Decoder α) : Option α := do
  let octets ← (t.contentAt path).toOption
  let text ← Text.decodeUtf8 octets
  (decode.readAll text).toOption

/-- What was written of a value is read back from its file by `read?`. -/
theorem FileTree.read?_eq {α : Type} {t : FileTree} {path : String} {decode : Decoder α} {v : Value}
    {a : α} (held : t.contentAt path = .ok (Text.encodeUtf8 v.prettyText))
    (back : decode.readAll v.prettyText = .ok a) : t.read? path decode = some a := by
  have text : Text.decodeUtf8 (Text.encodeUtf8 v.prettyText) = some v.prettyText :=
    Text.decodeUtf8_eq_some_iff.2 rfl
  simp [FileTree.read?, held, text, back, Except.toOption]

/-- Reads the records of a file of records, whatever else stands in it, such as the tally and the
mark of a cancellation. -/
def Record.fileDecoder : Decoder (List Record) :=
  Json.record [.of "results" (.list Record.decode) id (fun _ records => some records)] false none id

/-- The records of the report `r` are read back from its document by `Record.fileDecoder`. -/
theorem Report.written_resultsDocument (r : Report) :
    Written Record.fileDecoder r.resultsDocument r.results 3 := by
  have counts : r.counts.encode.Whole ∧ r.counts.encode.depth ≤ 2 := by
    refine ⟨.object ?_, Value.depth_object_le (n := 1) ?_⟩
    · simpa using ⟨.number _, .number _, .number _⟩
    · simp [Value.nat, Value.depth]
  have all : ∀ v ∈ r.results.map Record.encode, v.Whole ∧ v.depth ≤ 1 := by
    intro v member
    obtain ⟨record, -, rfl⟩ := List.mem_map.1 member
    exact ⟨record.written.whole, record.written.nests⟩
  have results : (Value.array (r.results.map Record.encode)).Whole ∧
      (Value.array (r.results.map Record.encode)).depth ≤ 2 :=
    ⟨.array fun v h => (all v h).1, Value.depth_array_le fun v h => (all v h).2⟩
  refine ⟨.object ?_, Value.depth_object_le ?_, ?_⟩
  · simpa using ⟨.string _, .string _, .bool _, counts.1, results.1⟩
  · simp only [List.forall_mem_cons]
    refine ⟨?_, ?_, ?_, counts.2, results.2, fun m h => absurd h List.not_mem_nil⟩ <;>
      simp [Value.depth]
  · have read : List.Forall₂ Record.decode.Reads (r.results.map Record.encode) r.results := by
      rw [List.forall₂_map_left_iff]
      exact List.forall₂_same.2 fun record _ => record.written.reads
    refine Decoder.reads_record (d := some r.results) ?_ rfl
    -- All members but the records are left out.
    exact .other rfl rfl (.string _) (.other rfl rfl (.string _) (.other rfl rfl (.bool _)
      (.other rfl rfl counts.1 (.field rfl rfl
        (Field.reads_of (Decoder.reads_list read fun v h => (all v h).1) _) (.nil _)))))

/-- Both files of a report that was written are read back, once the report is there. -/
theorem Report.read?_of_write {r : Report} {files files' : FileTree} {sink : Sink} {suffix : String}
    {paths : ReportPaths} (written : r.write files sink suffix = (.ok paths, files'))
    (bounded : ∀ t ∈ r.intervals.times, t.secs ≤ Timestamp.lastSecond) :
    files'.read? paths.intervals Timeline.decode = some r.intervals ∧
      files'.read? paths.results Record.fileDecoder = some r.results := by
  obtain ⟨stream, encoded, intervals, results⟩ := contentAt_of_write written
  -- The intervals were written, so no instant lies before 1970.
  have dated : ∀ t ∈ r.intervals.times, Timestamp.epoch ≤ t := by
    rw [← Timeline.dated_iff, ← Timeline.isSome_encode?_iff, encoded]
    rfl
  obtain ⟨v, encoded', whole⟩ := r.intervals.written fun t h => ⟨dated t h, bounded t h⟩
  obtain rfl : v = stream := Option.some.inj (encoded'.symm.trans encoded)
  refine ⟨FileTree.read?_eq intervals ?_, FileTree.read?_eq results ?_⟩
  · exact (whole.reads.readAll (Nat.lt_of_le_of_lt whole.nests (by decide))).2
  · have document := r.written_resultsDocument
    exact (document.reads.readAll (Nat.lt_of_le_of_lt document.nests (by decide))).2

/-- What a run persists, type by type, and the two files of its report: everything is read back. -/
structure Persistence : Prop where
  interval : Persists Interval.encode? Interval.decode Interval.times Always Always
  timeline : Persists Timeline.encode? Timeline.decode Timeline.times Always Always
  window : Persists Window.encode? Window.decode Window.times Always Always
  record : Persists (fun r => some (Record.encode r)) Record.decode (fun _ => []) Always Always
  access : Persists (fun a => some (ClusterAccess.encode a)) ClusterAccess.decode (fun _ => [])
    Always Always
  resources : Persists (fun r => some (Resources.encode r)) Resources.decode (fun _ => [])
    Resources.Whole Resources.Fits
  report : ∀ (r : Report) files sink suffix paths files',
    r.write files sink suffix = (.ok paths, files') →
    (∀ t ∈ r.intervals.times, t.secs ≤ Timestamp.lastSecond) →
    files'.read? paths.intervals Timeline.decode = some r.intervals ∧
      files'.read? paths.results Record.fileDecoder = some r.results

/-- Everything that a run persists is read back as it was written, and only instants before 1970
keep a value from being written: one `Persists` for each type, and the files of a report. -/
theorem persisted_data_reads_back : Persistence where
  interval := Interval.persists
  timeline := Timeline.persists
  window := Window.persists
  record := Record.persists
  access := ClusterAccess.persists
  resources := Resources.persists
  report := fun _ _ _ _ _ _ => Report.read?_of_write

end Vigil
