import Vigil.Json.Decode
import Vigil.Proofs.Json.ValueReading

/-!
# Decoding what was written

A decoder reads a written value back where it does so in every layout, with anything after it that
may follow a value. Decoders that are built from others read back what their parts read back.

The module introduces:

* `Decoder.Reads`, a written value that a decoder reads back;
* `Fills`, the members of a written object that fill the draft of a record;
* `Decoder.Reads.readAll`, reading back both written forms.
-/

namespace Vigil.Json

namespace Decoder

variable {α : Type}

/-- The decoder `read` reads the value `v` back as `a` from its text in any layout, where it may
nest so deep. -/
def Reads (read : Decoder α) (v : Value) (a : α) : Prop :=
  ∀ (l : Layout) (level depth : Nat) (blanks rest : List Char), Spaces blanks →
    v.depth < depth → Ends rest → read depth (blanks ++ (l.render level v ++ rest)) = .ok (a, rest)

/-- Both written forms of a value that a decoder reads back are read back as a whole, by
`readAll`. -/
theorem Reads.readAll {read : Decoder α} {v : Value} {a : α} (reads : read.Reads v a)
    (nests : v.depth < nestingLimit) :
    read.readAll v.compactText = .ok a ∧ read.readAll v.prettyText = .ok a := by
  have whole (l : Layout) : read.readAll (String.ofList (l.render 0 v)) = .ok a := by
    have all := reads l 0 nestingLimit [] [] spaces_nil nests ends_nil
    rw [List.nil_append, List.append_nil] at all
    rw [Decoder.readAll, String.toList_ofList, all]
    rfl
  refine ⟨?_, ?_⟩
  · rw [Value.compactText, Layout.compact_eq 0]
    exact whole .tight
  · rw [Value.prettyText, Layout.pretty_eq]
    exact whole .spread

theorem Reads.bind {β : Type} {read : Decoder α} {v : Value} {a : α} {b : β}
    {check : α × List Char → Reading β} (reads : read.Reads v a)
    (passes : ∀ rest, check (a, rest) = .ok (b, rest)) :
    Reads (fun depth text => read depth text >>= check) v b := by
  intro l level depth blanks rest spaces nests ends
  simp only [reads l level depth blanks rest spaces nests ends, Bind.bind, Except.bind, passes]

theorem Reads.map {β : Type} {read : Decoder α} {v : Value} {a : α} (reads : read.Reads v a)
    (f : α → β) : Reads (fun depth text => (read depth text).map fun (a, rest) => (f a, rest)) v
      (f a) := by
  intro l level depth blanks rest spaces nests ends
  simp only [reads l level depth blanks rest spaces nests ends, Except.map]

/-! ## Scalars -/

/-- Any value without binary numbers is read back, if it is one that can be read at all
(`Value.Regular`). -/
theorem reads_value {v : Value} (regular : v.Regular) (whole : v.Whole) : value.Reads v v := by
  intro l level depth blanks rest spaces nests ends
  rw [value, anyValue_spaces spaces]
  exact v.read_render regular whole (by simp; omega) nests ends

theorem reads_text (s : String) : text.Reads (.string s) s := by
  intro l level depth blanks rest spaces nests ends
  rw [text, skipSpaces_append spaces, Layout.render, writeString_append,
    skipSpaces_cons (by decide)]
  exact textBody_writeString s rest

theorem reads_natural {n bound : Nat} (fits : n ≤ bound) (bounded : bound ≤ maxWord) :
    (natural bound).Reads (.nat n) n := by
  intro l level depth blanks rest spaces nests ends
  rw [natural, skipSpaces_append spaces, Value.nat, Layout.render]
  rcases writeNumber_cases n with ⟨-, c, cs, written, digit, digits⟩ | ⟨negative, -⟩
  · obtain ⟨space, -, -, -, -, minus, -⟩ := of_isDigit digit
    have body := numberBody_toDigits true (Nat.le_trans fits bounded) ends
    rw [Int.toNat_natCast] at digits
    rw [← digits, List.cons_append] at body
    simp [written, skipSpaces_cons space, minus, digit, body, wholeNumber, Except.map, fits]
  · omega

theorem reads_truth (b : Bool) : truth.Reads (.bool b) b := by
  intro l level depth blanks rest spaces nests ends
  rw [truth, skipSpaces_append spaces]
  cases b
  · rw [Layout.render]
    rfl
  · rw [Layout.render]
    rfl

theorem reads_choice {find? : String → Option α} {name : String} {a : α}
    (found : find? name = some a) : (choice find?).Reads (.string name) a := by
  intro l level depth blanks rest spaces nests ends
  rw [choice, skipSpaces_append spaces, Layout.render, writeString_append,
    skipSpaces_cons (by decide)]
  simp [textBody_writeString, found, bind, Except.bind]

/-! ## Options, lists and dictionaries -/

/-- Nothing is read back from `null`. -/
theorem reads_optional_none {read : Decoder α} : (optional read).Reads .null none := by
  intro l level depth blanks rest spaces nests ends
  rw [optional, skipSpaces_append spaces, Layout.render]
  rfl

/-- A value other than `null` is read back as it is without the option. -/
theorem reads_optional_some {read : Decoder α} {v : Value} {a : α} (reads : read.Reads v a)
    (whole : v.Whole) (other : v ≠ .null) : (optional read).Reads v (some a) := by
  intro l level depth blanks rest spaces nests ends
  have all := reads l level depth [] rest spaces_nil nests ends
  obtain ⟨c, cs, same, space, -, word⟩ := whole.head l level
  rw [List.nil_append, same, List.cons_append] at all
  rw [optional, skipSpaces_append spaces, same, List.cons_append, skipSpaces_cons space]
  split
  · next first =>
    cases first
    exact absurd rfl (word other)
  · rw [all]
    rfl

theorem reads_optional (s : Option String) : (optional text).Reads (.optional s) s := by
  cases s with
  | none => exact reads_optional_none
  | some s => exact reads_optional_some (reads_text s) (.string s) (fun same => nomatch same)

theorem Reads.forall₂ {read : Decoder α} {values : List Value} {as : List α}
    (reads : List.Forall₂ read.Reads values as) {depth : Nat}
    (nest : ∀ v ∈ values, v.depth < depth) (l : Layout) (level : Nat) :
    List.Forall₂ (fun v a => ∀ rest, Ends rest →
      read depth (l.render level v ++ rest) = .ok (a, rest)) values as := by
  induction reads with
  | nil => exact .nil
  | cons first _ ih =>
    obtain ⟨near, nest⟩ := List.forall_mem_cons.1 nest
    exact .cons (fun rest ends => first l level depth [] rest spaces_nil near ends) (ih nest)

/-- A list is read back item by item, by `List.Forall₂` over its items. -/
theorem reads_list {read : Decoder α} {values : List Value} {as : List α}
    (reads : List.Forall₂ read.Reads values as) (whole : ∀ v ∈ values, v.Whole) :
    (list read).Reads (.array values) as := by
  intro l level depth blanks rest spaces nests ends
  obtain ⟨deep, nest⟩ := Value.depth_array_lt_iff.1 nests
  have each := Reads.forall₂ reads nest l (level + 1)
  have count := length_le_of_array l (level + 1) whole
  have items := items_inside
    (steps_collect (fun v member => (whole v member).starts l (level + 1)) each []) level rest
    (show values.length < (l.inside (level + 1) (l.renderItems (level + 1) values) ++
      (l.ending level (l.renderItems (level + 1) values) ']' ++ rest)).length + 1 by
        simp only [List.length_append]; omega)
  rw [list, skipSpaces_append spaces, Layout.render, Layout.enclose, List.cons_append,
    skipSpaces_cons (by decide)]
  simp only [if_neg (Nat.not_le.2 deep), List.append_assoc, items]
  simp [Except.map]

theorem steps_dict {read : Decoder α} {encode : α → Value} {entries : List (String × α)}
    {depth : Nat} (reads : ∀ e ∈ entries, read.Reads (encode e.2) e.2)
    (nest : ∀ e ∈ entries, (encode e.2).depth < depth) (l : Layout) (level : Nat) {found d : Dict α}
    (same : d.entries = found.entries ++ entries) :
    MemberSteps l level (fun name (found : Dict α) text =>
      (colon text).bind fun text =>
        (read depth text).map fun (a, rest) => (found.insert name a, rest)) found
      (entries.map fun e => (e.1, encode e.2)) d := by
  induction entries generalizing found with
  | nil =>
    obtain rfl : d = found := by
      obtain ⟨es, sorted⟩ := d
      obtain ⟨es', sorted'⟩ := found
      simpa using same
    exact .nil d
  | cons e entries ih =>
    obtain ⟨name, a⟩ := e
    obtain ⟨first, reads⟩ := List.forall_mem_cons.1 reads
    obtain ⟨near, nest⟩ := List.forall_mem_cons.1 nest
    -- The names come in their order, so each insertion is one at the end.
    have sorted : SortedByKey (found.entries ++ (name, a) :: entries) := same ▸ d.sorted
    have last : ∀ e ∈ found.entries, e.1 < name := fun e member =>
      (List.pairwise_append.1 sorted).2.2 e member (name, a) List.mem_cons_self
    have grown : (found.insert name a).entries = found.entries ++ [(name, a)] :=
      insertEntry_of_last last
    refine .cons (t := found.insert name a) (fun rest ends => ?_) (ih reads nest ?_)
    · simp only [colon_cons, Except.bind, first l level depth l.gap rest l.gap_spaces near ends,
        Except.map]
    · rw [grown, same, List.append_assoc, List.singleton_append]

/-- A dictionary is read back name by name: its names are sorted, so each of them goes to the
end. -/
theorem reads_dict {read : Decoder α} (encode : α → Value) {d : Dict α}
    (reads : ∀ e ∈ d.entries, read.Reads (encode e.2) e.2) :
    (dict read).Reads (.object (d.entries.map fun e => (e.1, encode e.2))) d := by
  intro l level depth blanks rest spaces nests ends
  obtain ⟨deep, nest⟩ := Value.depth_object_lt_iff.1 nests
  have nest : ∀ e ∈ d.entries, (encode e.2).depth < depth - 1 := fun e member =>
    nest (e.1, encode e.2) (List.mem_map_of_mem (f := fun e => (e.1, encode e.2)) member)
  have steps := steps_dict reads nest l (level + 1)
    (show d.entries = (Dict.empty : Dict α).entries ++ d.entries from rfl)
  generalize d.entries.map (fun e => (e.1, encode e.2)) = members at steps ⊢
  have count := length_le_of_object l (level + 1) members
  have read := members_inside steps level rest
    (show members.length < (l.inside (level + 1) (l.renderMembers (level + 1) members) ++
      (l.ending level (l.renderMembers (level + 1) members) '\x7d' ++ rest)).length + 1 by
        simp only [List.length_append]; omega)
  rw [dict, skipSpaces_append spaces, Layout.render, Layout.enclose, List.cons_append,
    skipSpaces_cons (by decide)]
  simp only [if_neg (Nat.not_le.2 deep), List.append_assoc, read]

end Decoder

/-! ## Records -/

section Records

variable {σ α : Type}

/-- The members of a written object fill the draft of a record one after the other. A member that is
no field is left out, unless the record is `strict`. -/
inductive Fills (fields : List (Field σ)) (strict : Bool) : σ → List (String × Value) → σ → Prop
  | nil (d : σ) : Fills fields strict d [] d
  | field {d e u : σ} {name : String} {v : Value} {members : List (String × Value)}
      {f : Field σ} (found : fields.find? (fun f => f.name == name) = some f)
      (unset : f.isSet d = false) (reads : (f.read d).Reads v e)
      (more : Fills fields strict e members u) :
      Fills fields strict d ((name, v) :: members) u
  | other {d u : σ} {name : String} {v : Value} {members : List (String × Value)}
      (unknown : fields.find? (fun f => f.name == name) = none) (lenient : strict = false)
      (whole : v.Whole) (more : Fills fields strict d members u) :
      Fills fields strict d ((name, v) :: members) u

theorem Fills.append {fields : List (Field σ)} {strict : Bool} {d e u : σ}
    {members others : List (String × Value)} (fills : Fills fields strict d members e)
    (more : Fills fields strict e others u) :
    Fills fields strict d (members ++ others) u := by
  induction fills with
  | nil d => exact more
  | field found unset reads _ ih => exact .field found unset reads (ih more)
  | other unknown lenient whole _ ih => exact .other unknown lenient whole (ih more)

/-- A field of a record sets what its decoder `read` reads back. -/
theorem Field.reads_of {name : String} {read : Decoder α} {look : σ → Option α} {set : σ → α → σ}
    {v : Value} {a : α} (reads : read.Reads v a) (draft : σ) :
    ((Field.of name read look set).read draft).Reads v (set draft a) := by
  intro l level depth blanks rest spaces nests ends
  rw [Field.of]
  simp only [reads l level depth blanks rest spaces nests ends, Except.map]

theorem Fills.steps {fields : List (Field σ)} {strict : Bool} {d u : σ}
    {members : List (String × Value)} (fills : Fills fields strict d members u)
    {depth : Nat} (nest : ∀ m ∈ members, m.2.depth < depth) (l : Layout) (level : Nat) :
    MemberSteps l level (recordMember fields strict depth) d members u := by
  induction fills with
  | nil d => exact .nil d
  | field found unset reads more ih =>
    obtain ⟨near, nest⟩ := List.forall_mem_cons.1 nest
    refine .cons (fun rest ends => ?_) (ih nest)
    simp only [recordMember, found, unset, Bool.false_eq_true, if_false, colon_cons, bind,
      Except.bind]
    exact reads l level depth l.gap rest l.gap_spaces near ends
  | other unknown lenient whole more ih =>
    obtain ⟨-, nest⟩ := List.forall_mem_cons.1 nest
    refine .cons (fun rest ends => ?_) (ih nest)
    simp only [recordMember, unknown, lenient, Bool.false_eq_true, if_false, colon_cons, bind,
      Except.bind, skipValue_spaces l.gap_spaces]
    rw [Value.skip_render whole (by simp; omega) ends]

/-- A record is read back from an object whose members fill it: one lemma for every record type. -/
theorem Decoder.reads_record {fields : List (Field σ)} {strict : Bool} {start d : σ}
    {finish : σ → Option α} {members : List (String × Value)} {a : α}
    (fills : Fills fields strict start members d) (finished : finish d = some a) :
    Decoder.Reads (record fields strict start finish) (.object members) a := by
  intro l level depth blanks rest spaces nests ends
  obtain ⟨deep, nest⟩ := Value.depth_object_lt_iff.1 nests
  have count := length_le_of_object l (level + 1) members
  have read := members_inside (fills.steps nest l (level + 1)) level rest
    (show members.length < (l.inside (level + 1) (l.renderMembers (level + 1) members) ++
      (l.ending level (l.renderMembers (level + 1) members) '\x7d' ++ rest)).length + 1 by
        simp only [List.length_append]; omega)
  rw [record, skipSpaces_append spaces, Layout.render, Layout.enclose, List.cons_append,
    skipSpaces_cons (by decide)]
  simp only [if_neg (Nat.not_le.2 deep), List.append_assoc, bind, Except.bind, read, finished]

end Records
end Vigil.Json
