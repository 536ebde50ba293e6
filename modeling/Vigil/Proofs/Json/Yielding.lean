import Vigil.Json.Decode
import Vigil.Proofs.Except
import Vigil.Proofs.Json.Layout

/-!
# What decoders return

Whatever text a decoder accepts, what it returns has a written form of its own: numbers have 64
bits, objects are sorted, and nothing nests deeper than the text did. What holds of each part that
is read holds of the parts of the whole.

The module introduces:

* `Decoder.Yields`, what holds of everything that a decoder returns.
-/

namespace Vigil.Json

/-! ## Numbers -/

theorem scaled_eq_ok {positive : Bool} {significand : Nat} {k : Int} {n : Number}
    (read : scaled positive significand k = .ok n) : ∃ x, n = .float x := by
  unfold scaled at read
  split at read
  · cases read
  · obtain ⟨y, -, rfl⟩ := exists_of_map_eq_ok read
    exact ⟨_, rfl⟩

theorem exponentPart_eq_ok {positive : Bool} {significand : Nat} {k : Int}
    {text rest : List Char} {n : Number}
    (read : exponentPart positive significand k text = .ok (n, rest)) : ∃ x, n = .float x := by
  unfold exponentPart at read
  simp only at read
  -- The sign of the exponent makes no difference.
  split at read
  all_goals
    simp only at read
    split at read
    · cases read
    · split at read
      · split at read
        · cases read
        · cases read
          exact ⟨_, rfl⟩
      · obtain ⟨m, number, same⟩ := exists_of_map_eq_ok read
        cases same
        exact scaled_eq_ok number

theorem afterDigits_eq_ok {positive : Bool} {significand : Nat} {k : Int} {text rest : List Char}
    {n : Number} (read : afterDigits positive significand k text = .ok (n, rest)) :
    ∃ x, n = .float x := by
  unfold afterDigits at read
  split at read
  · exact exponentPart_eq_ok read
  · exact exponentPart_eq_ok read
  · obtain ⟨m, number, same⟩ := exists_of_map_eq_ok read
    cases same
    exact scaled_eq_ok number

theorem fractionPart_eq_ok {positive : Bool} {significand : Nat} {k : Int} {text rest : List Char}
    {n : Number} (read : fractionPart positive significand k text = .ok (n, rest)) :
    ∃ x, n = .float x := by
  unfold fractionPart at read
  simp only at read
  split at read
  · cases read
  · exact afterDigits_eq_ok read

theorem extend_le {start : Nat} (fits : start ≤ maxWord) (digits : List Char) :
    (extend start digits).1 ≤ maxWord := by
  induction digits generalizing start with
  | nil => exact fits
  | cons c digits ih =>
    rw [extend]
    split
    · exact fits
    · next small => exact ih (Nat.not_lt.1 small)

theorem regular_of_wholeNumber {positive : Bool} {k : Nat} {n : Number} (fits : k ≤ maxWord)
    (read : wholeNumber positive k = .ok n) : (Value.number n).Regular := by
  have least : Value.leastWord = -9223372036854775808 := rfl
  unfold wholeNumber at read
  split at read
  · cases read
    exact .whole (by omega) (by omega)
  · split at read
    · cases read
      exact .whole (by omega) (by omega)
    · split at read
      · cases read
        exact .binary _
      · cases read

/-- What is read of a number has 64 bits or is a binary one, whichever way it is read. -/
theorem regular_of_numberBody {positive : Bool} {text rest : List Char} {n : Number}
    (read : numberBody positive text = .ok (n, rest)) : (Value.number n).Regular := by
  have binary (h : ∃ x, n = .float x) : (Value.number n).Regular := by
    obtain ⟨x, rfl⟩ := h
    exact .binary x
  unfold numberBody at read
  simp only at read
  split at read
  · cases read
  · cases read
  · split at read
    · -- A fraction or an exponent makes the number a binary one.
      exact binary (fractionPart_eq_ok read)
    · exact binary (exponentPart_eq_ok read)
    · exact binary (exponentPart_eq_ok read)
    · split at read
      · -- So do digits that are too many for 64 bits.
        obtain ⟨m, number, same⟩ := exists_of_map_eq_ok read
        cases same
        exact binary (scaled_eq_ok number)
      · obtain ⟨m, number, same⟩ := exists_of_map_eq_ok read
        cases same
        exact regular_of_wholeNumber (extend_le (Nat.zero_le _) _) number

/-! ## Lists and objects -/

section Invariants

variable {σ : Type} {I : σ → Prop}

/-- What every item keeps holds after all items, by induction on the fuel of `items`. -/
theorem items_invariant {step : σ → List Char → Reading σ}
    (keeps : ∀ s text s' rest, I s → step s text = .ok (s', rest) → I s') {fuel : Nat}
    {first : Bool} {s s' : σ} {text rest : List Char} (start : I s)
    (read : items step fuel first s text = .ok (s', rest)) : I s' := by
  induction fuel generalizing first s text with
  | zero => cases read
  | succ fuel ih =>
    rw [items] at read
    obtain ⟨next, -, read⟩ := exists_of_bind_eq_ok read
    cases next with
    | none =>
      obtain ⟨after, -, same⟩ := exists_of_bind_eq_ok read
      cases same
      exact start
    | some text' =>
      obtain ⟨⟨s₁, after⟩, item, read⟩ := exists_of_bind_eq_ok read
      exact ih (keeps s text' s₁ after start item) read

/-- What every member keeps holds after all members, by induction on the fuel of `members`. -/
theorem members_invariant {step : String → σ → List Char → Reading σ}
    (keeps : ∀ name s text s' rest, I s → step name s text = .ok (s', rest) → I s')
    {fuel : Nat} {first : Bool} {s s' : σ} {text rest : List Char} (start : I s)
    (read : members step fuel first s text = .ok (s', rest)) : I s' := by
  induction fuel generalizing first s text with
  | zero => cases read
  | succ fuel ih =>
    rw [members] at read
    obtain ⟨⟨next, text'⟩, -, read⟩ := exists_of_bind_eq_ok read
    cases next with
    | none =>
      cases read
      exact start
    | some name =>
      obtain ⟨⟨s₁, after⟩, member, read⟩ := exists_of_bind_eq_ok read
      exact ih (keeps name s text' s₁ after start member) read

theorem eq_or_mem_of_insertEntry {α : Type} {key : String} {value : α}
    {entries : List (String × α)} {e : String × α} (h : e ∈ insertEntry key value entries) :
    e = (key, value) ∨ e ∈ entries := by
  induction entries with
  | nil => exact .inl (List.mem_singleton.1 h)
  | cons a rest ih =>
    rw [insertEntry] at h
    split at h
    · exact (List.mem_cons.1 h).imp_right fun h => h
    · split at h
      · exact (List.mem_cons.1 h).imp_right (List.mem_cons_of_mem _)
      · rcases List.mem_cons.1 h with same | h
        · exact .inr (List.mem_cons.2 (.inl same))
        · exact (ih h).imp_right (List.mem_cons_of_mem _)

end Invariants

section Parts

variable {α : Type} {P : α → Prop} {read : List Char → Reading α}

theorem forall_of_items (each : ∀ text a rest, read text = .ok (a, rest) → P a) {fuel : Nat}
    {text rest : List Char} {found : List α}
    (done : items (fun found text => (read text).map fun (a, rest) => (a :: found, rest))
      fuel true [] text = .ok (found, rest)) : ∀ a ∈ found, P a := by
  refine items_invariant (I := fun found => ∀ a ∈ found, P a) ?_
    (fun a h => absurd h List.not_mem_nil) done
  intro found text found' rest all step
  obtain ⟨⟨a, after⟩, value, same⟩ := exists_of_map_eq_ok step
  cases same
  exact List.forall_mem_cons.2 ⟨each text a _ value, all⟩

/-- The members of an object are sorted, and what holds of each value that is read holds of the
values of all of them. -/
theorem forall_of_members (each : ∀ text a rest, read text = .ok (a, rest) → P a) {fuel : Nat}
    {text rest : List Char} {found : List (String × α)}
    (done : members (member read) fuel true [] text = .ok (found, rest)) :
    SortedByKey found ∧ ∀ m ∈ found, P m.2 := by
  refine members_invariant (I := fun found => SortedByKey found ∧ ∀ m ∈ found, P m.2) ?_
    ⟨List.Pairwise.nil, fun m h => absurd h List.not_mem_nil⟩ done
  rintro name found text found' rest ⟨sorted, all⟩ step
  obtain ⟨text', -, step⟩ := exists_of_bind_eq_ok step
  obtain ⟨⟨a, after⟩, value, same⟩ := exists_of_bind_eq_ok step
  cases same
  refine ⟨sorted.insertEntry, fun m h => ?_⟩
  rcases eq_or_mem_of_insertEntry h with rfl | h
  · exact each text' a _ value
  · exact all m h

end Parts

/-! ## Values -/

/-- A value that was read is `Regular` and nests no deeper than it was allowed to. -/
theorem regular_of_anyValue {fuel depth : Nat} {text rest : List Char} {v : Value}
    (room : 0 < depth) (read : anyValue fuel depth text = .ok (v, rest)) :
    v.Regular ∧ v.depth < depth := by
  induction fuel generalizing depth text rest v with
  | zero => cases read
  | succ fuel ih =>
    -- A scalar opens no level.
    have scalar (regular : v.Regular) (flat : v.depth = 0) : v.Regular ∧ v.depth < depth :=
      ⟨regular, flat ▸ room⟩
    rw [anyValue] at read
    split at read
    · cases read
    · next c text' _ =>
    split at read
    · obtain ⟨after, -, same⟩ := exists_of_map_eq_ok read
      cases same
      exact scalar .null rfl
    split at read
    · obtain ⟨after, -, same⟩ := exists_of_map_eq_ok read
      cases same
      exact scalar (.bool true) rfl
    split at read
    · obtain ⟨after, -, same⟩ := exists_of_map_eq_ok read
      cases same
      exact scalar (.bool false) rfl
    split at read
    · obtain ⟨⟨n, after⟩, number, same⟩ := exists_of_map_eq_ok read
      cases same
      exact scalar (regular_of_numberBody number) rfl
    split at read
    · obtain ⟨⟨n, after⟩, number, same⟩ := exists_of_map_eq_ok read
      cases same
      exact scalar (regular_of_numberBody number) rfl
    split at read
    · obtain ⟨⟨s, after⟩, -, same⟩ := exists_of_map_eq_ok read
      cases same
      exact scalar (.string s) rfl
    split at read
    · split at read
      · cases read
      · next deep =>
        obtain ⟨⟨found, after⟩, read, same⟩ := exists_of_map_eq_ok read
        cases same
        -- The items are read with one level less, so what holds of each of them is one deeper here.
        have all := forall_of_items (fun _ _ _ value => ih (by omega) value) read
        refine ⟨.array fun v h => (all v (List.mem_reverse.1 h)).1, ?_⟩
        exact Value.depth_array_lt_iff.2
          ⟨by omega, fun v h => (all v (List.mem_reverse.1 h)).2⟩
    split at read
    · split at read
      · cases read
      · next deep =>
        obtain ⟨⟨found, after⟩, read, same⟩ := exists_of_map_eq_ok read
        cases same
        obtain ⟨sorted, all⟩ := forall_of_members (fun _ _ _ value => ih (by omega) value) read
        refine ⟨.object sorted fun m h => (all m h).1, ?_⟩
        exact Value.depth_object_lt_iff.2 ⟨by omega, fun m h => (all m h).2⟩
    · cases read

/-! ## Decoders -/

namespace Decoder

variable {α : Type}

/-- Everything that the decoder `read` returns satisfies `P`, where so many levels may be opened. -/
def Yields (read : Decoder α) (P : Nat → α → Prop) : Prop :=
  ∀ depth text a rest, 0 < depth → read depth text = .ok (a, rest) → P depth a

/-- What is read of a whole text satisfies the condition as well, at the limit of nesting. -/
theorem Yields.readAll {read : Decoder α} {P : Nat → α → Prop} (yields : read.Yields P)
    {text : String} {a : α} (done : read.readAll text = .ok a) : P nestingLimit a := by
  obtain ⟨⟨a', rest⟩, first, done⟩ := exists_of_bind_eq_ok done
  simp only at done
  split at done
  · cases done
    exact yields nestingLimit _ a rest (by decide) first
  · cases done

theorem Yields.map {β : Type} {read : Decoder α} {P : Nat → α → Prop} {Q : Nat → β → Prop}
    (yields : read.Yields P) (f : α → β) (carries : ∀ depth a, P depth a → Q depth (f a)) :
    Yields (fun depth text => (read depth text).map fun (a, rest) => (f a, rest)) Q := by
  intro depth text b rest room done
  obtain ⟨⟨a, after⟩, inner, same⟩ := exists_of_map_eq_ok done
  cases same
  exact carries depth a (yields depth text a _ room inner)

theorem yields_value : value.Yields fun depth v => v.Regular ∧ v.depth < depth :=
  fun _ _ _ _ room read => regular_of_anyValue room read

theorem Yields.optional {read : Decoder α} {P : α → Prop} (yields : read.Yields fun _ => P) :
    (Decoder.optional read).Yields fun _ o => ∀ a ∈ o, P a := by
  intro depth text o rest room done
  rw [Decoder.optional] at done
  split at done
  · obtain ⟨after, -, same⟩ := exists_of_map_eq_ok done
    cases same
    exact fun a h => nomatch h
  · obtain ⟨⟨a, after⟩, inner, same⟩ := exists_of_map_eq_ok done
    cases same
    rintro _ ⟨⟩
    exact yields depth _ a _ room inner

theorem Yields.list {read : Decoder α} {P : α → Prop} (yields : read.Yields fun _ => P) :
    (Decoder.list read).Yields fun _ as => ∀ a ∈ as, P a := by
  intro depth text as rest room done
  rw [Decoder.list] at done
  split at done
  · split at done
    · cases done
    · next deep =>
      obtain ⟨⟨found, after⟩, done, same⟩ := exists_of_map_eq_ok done
      cases same
      have all := forall_of_items (fun text a rest => yields _ text a rest (by omega)) done
      exact fun a h => all a (List.mem_reverse.1 h)
  · cases done

theorem Yields.dict {read : Decoder α} {P : Nat → α → Prop} (yields : read.Yields P) :
    (Decoder.dict read).Yields fun depth d => 1 < depth ∧ ∀ e ∈ d.entries, P (depth - 1) e.2 := by
  intro depth text d rest room done
  rw [Decoder.dict] at done
  split at done
  · split at done
    · cases done
    · next deep =>
      refine ⟨Nat.lt_of_not_le deep, ?_⟩
      -- The entries that were read so far are the invariant.
      refine members_invariant (I := fun d : Dict α => ∀ e ∈ d.entries, P (depth - 1) e.2) ?_
        (fun e h => absurd h List.not_mem_nil) done
      intro name found text found' rest all step
      obtain ⟨text', -, step⟩ := exists_of_bind_eq_ok step
      obtain ⟨⟨a, after⟩, value, same⟩ := exists_of_map_eq_ok step
      cases same
      intro e h
      rcases eq_or_mem_of_insertEntry h with rfl | h
      · exact yields _ _ a _ (by omega) value
      · exact all e h
  · cases done

section Records

variable {σ : Type} {I : σ → Prop}

theorem Yields.field {name : String} {read : Decoder α} {look : σ → Option α} {set : σ → α → σ}
    {P : α → Prop} (yields : read.Yields fun _ => P) {draft : σ}
    (keeps : ∀ a, P a → I (set draft a)) :
    ((Field.of name read look set).read draft).Yields fun _ => I := by
  intro depth text draft' rest room done
  obtain ⟨⟨a, after⟩, value, same⟩ := exists_of_map_eq_ok done
  cases same
  exact keeps a (yields depth text a _ room value)

theorem recordItems_invariant {depth : Nat} {fields : List (Field σ)} (room : 0 < depth)
    (keeps : ∀ f ∈ fields, ∀ draft, I draft → (f.read draft).Yields fun _ => I) {first : Bool}
    {draft draft' : σ} {text rest : List Char} (holds : I draft)
    (read : recordItems depth fields first draft text = .ok (draft', rest)) : I draft' := by
  induction fields generalizing first draft text with
  | nil =>
    cases read
    exact holds
  | cons f fields ih =>
    obtain ⟨here, keeps⟩ := List.forall_mem_cons.1 keeps
    rw [recordItems] at read
    obtain ⟨next, -, read⟩ := exists_of_bind_eq_ok read
    cases next with
    | none =>
      cases read
      exact holds
    | some text' =>
      obtain ⟨⟨draft₁, after⟩, field, read⟩ := exists_of_bind_eq_ok read
      exact ih keeps (here draft holds depth text' draft₁ after room field) read

/-- A member keeps what every field keeps. One that no field has is left out. -/
theorem recordMember_invariant {depth : Nat} {fields : List (Field σ)} {strict : Bool}
    (room : 0 < depth) (keeps : ∀ f ∈ fields, ∀ draft, I draft → (f.read draft).Yields fun _ => I)
    {name : String} {draft draft' : σ} {text rest : List Char} (holds : I draft)
    (read : recordMember fields strict depth name draft text = .ok (draft', rest)) :
    I draft' := by
  rw [recordMember] at read
  split at read
  · next f found =>
    split at read
    · cases read
    · obtain ⟨text', -, read⟩ := exists_of_bind_eq_ok read
      exact keeps f (List.mem_of_find?_eq_some found) draft holds _ _ _ _ room read
  · split at read
    · cases read
    · obtain ⟨text', -, read⟩ := exists_of_bind_eq_ok read
      obtain ⟨after, -, same⟩ := exists_of_bind_eq_ok read
      cases same
      exact holds

/-- What every field keeps holds of the draft in the end, whether the record is an object or an
array. -/
theorem yields_record {fields : List (Field σ)} {strict : Bool} {start : σ}
    {finish : σ → Option α} {P : α → Prop} (begins : I start)
    (keeps : ∀ f ∈ fields, ∀ draft, I draft → (f.read draft).Yields fun _ => I)
    (finished : ∀ draft a, I draft → finish draft = some a → P a) :
    Yields (record fields strict start finish) fun _ => P := by
  intro depth text a rest room done
  rw [record] at done
  split at done
  · split at done
    · cases done
    · next deep =>
      obtain ⟨⟨draft, after⟩, read, done⟩ := exists_of_bind_eq_ok done
      -- The members of an object keep `I` of the draft, by name.
      have holds : I draft := members_invariant
        (fun _ _ _ _ _ holds => recordMember_invariant (by omega) keeps holds) begins read
      simp only at done
      split at done
      · next complete =>
        cases done
        exact finished draft _ holds complete
      · cases done
  · split at done
    · cases done
    · next deep =>
      obtain ⟨⟨draft, after⟩, read, done⟩ := exists_of_bind_eq_ok done
      -- The items of an array keep it as well, by place.
      have holds := recordItems_invariant (by omega) keeps begins read
      simp only at done
      split at done
      · next complete =>
        obtain ⟨after', -, same⟩ := exists_of_bind_eq_ok done
        cases same
        exact finished draft _ holds complete
      · cases done
  · cases done

end Records

end Decoder
end Vigil.Json
