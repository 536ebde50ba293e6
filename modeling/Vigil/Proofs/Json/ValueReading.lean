import Vigil.Proofs.Json.Reading

/-!
# Values in any layout

A value without binary numbers is read back from its text in any layout, and it can be left out
there as well. The induction is on the value: what is read of its parts carries over to arrays and
objects.

The module introduces:

* `Value.read_render`, reading a value back;
* `Value.skip_render`, leaving a value out.
-/

namespace Vigil.Json

variable {l : Layout} {level : Nat} {blanks rest : List Char}

/-! ## How a written value begins -/

theorem writeNumber_cases (n : Int) :
    (0 ≤ n ∧ ∃ c cs, writeNumber (.int n) = c :: cs ∧ c.isDigit = true ∧
      c :: cs = Nat.toDigits 10 n.toNat) ∨
    (n < 0 ∧ writeNumber (.int n) = '-' :: Nat.toDigits 10 n.natAbs) := by
  by_cases negative : n < 0
  · exact .inr ⟨negative, by simp [writeNumber, negative]⟩
  · refine .inl ⟨by omega, ?_⟩
    have same : n.natAbs = n.toNat := by omega
    obtain ⟨c, cs, digits⟩ := List.exists_cons_of_ne_nil
      (Nat.toDigits_ne_nil (n := n.toNat) (b := 10))
    refine ⟨c, cs, ?_, ?_, digits.symm⟩
    · simp [writeNumber, negative, same, digits]
    · exact Nat.isDigit_of_mem_toDigits (b := 10) (n := n.toNat) (by decide) (by decide)
        (by simp [digits])

theorem of_isDigit {c : Char} (digit : c.isDigit = true) : isSpace c = false ∧ c ≠ ']' ∧
    c ≠ 'n' ∧ c ≠ 't' ∧ c ≠ 'f' ∧ c ≠ '-' ∧ c ≠ '"' ∧ c ≠ '[' ∧ c ≠ '\x7b' := by
  have no {d : Char} (h : d.isDigit = false) : c ≠ d := by
    rintro rfl
    rw [h] at digit
    cases digit
  refine ⟨?_, no (by decide), no (by decide), no (by decide), no (by decide), no (by decide),
    no (by decide), no (by decide), no (by decide)⟩
  rw [Bool.eq_false_iff]
  intro space
  rw [isDigit_eq_false (.inr (.inr (.inr space)))] at digit
  cases digit

/-- What a value without binary numbers begins with; only `null` begins with its letter. -/
theorem Value.Whole.head {v : Value} (whole : v.Whole) (l : Layout) (level : Nat) :
    ∃ c cs, l.render level v = c :: cs ∧
      isSpace c = false ∧ c ≠ ']' ∧ (v ≠ .null → c ≠ 'n') := by
  cases whole with
  | null => exact ⟨'n', _, by rw [Layout.render], by decide, by decide, (absurd rfl ·)⟩
  | bool b =>
    cases b
    · exact ⟨'f', _, by rw [Layout.render], by decide, by decide, fun _ => by decide⟩
    · exact ⟨'t', _, by rw [Layout.render], by decide, by decide, fun _ => by decide⟩
  | number n =>
    rw [Layout.render]
    rcases writeNumber_cases n with ⟨-, c, cs, written, digit, -⟩ | ⟨-, written⟩
    · obtain ⟨space, closing, word, -⟩ := of_isDigit digit
      exact ⟨c, cs, written, space, closing, fun _ => word⟩
    · exact ⟨'-', _, written, by decide, by decide, fun _ => by decide⟩
  | string s =>
    exact ⟨'"', _, by rw [Layout.render, writeString, List.cons_append], by decide, by decide,
      fun _ => by decide⟩
  | array all =>
    exact ⟨'[', _, by rw [Layout.render, Layout.enclose], by decide, by decide, fun _ => by decide⟩
  | object all =>
    exact ⟨'\x7b', _, by rw [Layout.render, Layout.enclose], by decide, by decide,
      fun _ => by decide⟩

theorem Value.Whole.starts {v : Value} (whole : v.Whole) (l : Layout) (level : Nat) :
    Starts (l.render level v) := by
  obtain ⟨c, cs, same, space, closing, -⟩ := whole.head l level
  exact ⟨c, cs, same, space, closing⟩

/-! ## Lengths -/

theorem length_inside (l : Layout) (level : Nat) {pieces : List (List Char)}
    (some : ∀ piece ∈ pieces, piece ≠ []) :
    pieces.length ≤ (l.inside level pieces).length ∧
      ∀ piece ∈ pieces, piece.length ≤ (l.inside level pieces).length := by
  -- Each piece after the first has a comma in front, so it need not be longer than nothing.
  have others (pieces : List (List Char)) : pieces.length ≤ (l.others level pieces).length ∧
      ∀ piece ∈ pieces, piece.length ≤ (l.others level pieces).length := by
    induction pieces with
    | nil => simp [Layout.others]
    | cons piece pieces ih =>
      have same : (l.others level (piece :: pieces)).length =
          (l.line level).length + piece.length + 1 + (l.others level pieces).length := by
        simp [Layout.others]
        omega
      rw [same, List.length_cons]
      refine ⟨by omega, fun p member => ?_⟩
      rcases List.mem_cons.1 member with rfl | member
      · omega
      · have := ih.2 p member
        omega
  cases pieces with
  | nil => simp [Layout.inside]
  | cons piece pieces =>
    have pos := List.length_pos_iff.2 (some piece List.mem_cons_self)
    have same : (l.inside level (piece :: pieces)).length =
        (l.line level).length + piece.length + (l.others level pieces).length := by
      simp [Layout.inside]
      omega
    have tail := others pieces
    rw [same, List.length_cons]
    refine ⟨by omega, fun p member => ?_⟩
    rcases List.mem_cons.1 member with rfl | member
    · omega
    · have := tail.2 p member
      omega

theorem length_enclose {first last : Char} {pieces : List (List Char)} {n : Nat}
    (some : ∀ piece ∈ pieces, piece ≠ [])
    (room : (l.enclose level first pieces last).length < n + 1) :
    pieces.length < n ∧ ∀ piece ∈ pieces, piece.length < n := by
  have inside := length_inside l (level + 1) some
  have same : (l.enclose level first pieces last).length =
      (l.inside (level + 1) pieces).length + (l.ending level pieces last).length + 1 := by
    simp [Layout.enclose]
  have ending : 0 < (l.ending level pieces last).length := by
    simp [Layout.ending]
  refine ⟨by omega, fun piece member => ?_⟩
  have := inside.2 piece member
  omega

theorem renderItems_ne_nil (l : Layout) (level : Nat) {items : List Value}
    (whole : ∀ v ∈ items, v.Whole) :
    ∀ piece ∈ l.renderItems level items, piece ≠ [] := by
  intro piece member
  rw [Layout.renderItems_eq_map] at member
  obtain ⟨v, held, rfl⟩ := List.mem_map.1 member
  obtain ⟨c, cs, same, -⟩ := (whole v held).starts l level
  rw [same]
  exact List.cons_ne_nil c cs

theorem renderMembers_ne_nil (l : Layout) (level : Nat) (members : List (String × Value)) :
    ∀ piece ∈ l.renderMembers level members, piece ≠ [] := by
  intro piece member
  rw [Layout.renderMembers_eq_map] at member
  obtain ⟨⟨name, v⟩, held, rfl⟩ := List.mem_map.1 member
  simp [Layout.renderMember, writeString]

theorem length_le_of_array (l : Layout) (level : Nat) {items : List Value}
    (whole : ∀ v ∈ items, v.Whole) :
    items.length ≤ (l.inside level (l.renderItems level items)).length := by
  simpa using (length_inside l level (renderItems_ne_nil l level whole)).1

theorem length_le_of_object (l : Layout) (level : Nat) (members : List (String × Value)) :
    members.length ≤ (l.inside level (l.renderMembers level members)).length := by
  simpa using (length_inside l level (renderMembers_ne_nil l level members)).1

theorem room_of_array {items : List Value} {n : Nat} (whole : ∀ v ∈ items, v.Whole)
    (room : (l.render level (.array items)).length < n + 1) :
    items.length < n ∧ ∀ v ∈ items, (l.render (level + 1) v).length < n := by
  rw [Layout.render] at room
  have both := length_enclose (renderItems_ne_nil l (level + 1) whole) room
  rw [Layout.renderItems_eq_map, List.length_map] at both
  exact ⟨both.1, fun v member => both.2 _ (List.mem_map_of_mem member)⟩

/-- There is room for the values of an object where there is room for the object. -/
theorem room_of_object {members : List (String × Value)} {n : Nat}
    (room : (l.render level (.object members)).length < n + 1) :
    members.length < n ∧ ∀ m ∈ members, (l.render (level + 1) m.2).length < n := by
  rw [Layout.render] at room
  have both := length_enclose (renderMembers_ne_nil l (level + 1) members) room
  rw [Layout.renderMembers_eq_map, List.length_map] at both
  refine ⟨both.1, fun m member => Nat.lt_of_le_of_lt ?_ (both.2 _ (List.mem_map_of_mem member))⟩
  obtain ⟨name, v⟩ := m
  simp [Layout.renderMember]
  omega

/-! ## Reading a value -/

theorem insertEntry_of_last {α : Type} {key : String} {value : α} {entries : List (String × α)}
    (last : ∀ e ∈ entries, e.1 < key) :
    insertEntry key value entries = entries ++ [(key, value)] := by
  induction entries with
  | nil => rfl
  | cons e entries ih =>
    have before : e.1 < key := last e List.mem_cons_self
    have after : ¬key < e.1 := fun h => String.lt_irrefl _ (String.lt_trans before h)
    have other : key ≠ e.1 := by
      rintro rfl
      exact String.lt_irrefl _ before
    rw [insertEntry, if_neg after, if_neg other,
      ih fun e member => last e (List.mem_cons_of_mem _ member), List.cons_append]

theorem anyValue_number {n : Int} (low : Value.leastWord ≤ n) (high : n ≤ maxWord)
    (fuel depth : Nat) (ends : Ends rest) :
    anyValue (fuel + 1) depth (writeNumber (.int n) ++ rest) =
      .ok (.number (.int n), rest) := by
  simp only [Value.leastWord, maxWord] at low high
  rcases writeNumber_cases n with ⟨positive, c, cs, written, digit, digits⟩ | ⟨negative, written⟩
  · obtain ⟨space, -, n1, n2, n3, n4, -⟩ := of_isDigit digit
    have body := numberBody_toDigits true (n := n.toNat) (by rw [maxWord]; omega) ends
    rw [← digits] at body
    have back : (n.toNat : Int) = n := Int.toNat_of_nonneg positive
    simp only [List.cons_append] at body
    simp [written, anyValue, skipSpaces_cons space, n1, n2, n3, n4, digit, body, wholeNumber,
      Except.map, back]
  · have space : isSpace '-' = false := by decide
    have body := numberBody_toDigits false (n := n.natAbs) (by rw [maxWord]; omega) ends
    have fits : 0 < n.natAbs ∧ n.natAbs ≤ 9223372036854775808 := by omega
    have back : -(n.natAbs : Int) = n := by omega
    simp only [wholeNumber, Bool.false_eq_true, if_false, if_pos fits, Except.map, back] at body
    simp [written, anyValue, skipSpaces_cons space, body, Except.map]

/-- What is read of a member is put behind the members that were read, all of which come before
it. -/
theorem steps_member (l : Layout) (level : Nat) (read : List Char → Reading Value)
    {members : List (String × Value)}
    (reads : ∀ m ∈ members, ∀ blanks rest, Spaces blanks → Ends rest →
      read (blanks ++ (l.render level m.2 ++ rest)) = .ok (m.2, rest))
    (found : List (String × Value)) (sorted : SortedByKey (found ++ members)) :
    MemberSteps l level (member read) found members (found ++ members) := by
  induction members generalizing found with
  | nil =>
    rw [List.append_nil]
    exact .nil found
  | cons m members ih =>
    obtain ⟨name, v⟩ := m
    have last : ∀ e ∈ found, e.1 < name := fun e member =>
      (List.pairwise_append.1 sorted).2.2 e member (name, v) List.mem_cons_self
    refine .cons (t := found ++ [(name, v)]) (fun rest ends => ?_) ?_
    · have value := reads (name, v) List.mem_cons_self l.gap rest l.gap_spaces ends
      simp only [member, colon_cons, bind, Except.bind, value, insertEntry_of_last last]
    · have same : found ++ (name, v) :: members = (found ++ [(name, v)]) ++ members := by simp
      rw [same] at sorted ⊢
      exact ih (fun m member => reads m (List.mem_cons_of_mem _ member)) _ sorted

theorem anyValue_spaces (spaces : Spaces blanks) (fuel depth : Nat) (text : List Char) :
    anyValue fuel depth (blanks ++ text) = anyValue fuel depth text := by
  cases fuel with
  | zero => rfl
  | succ fuel => rw [anyValue, anyValue, skipSpaces_append spaces]

theorem anyValue_word (fuel depth : Nat) :
    anyValue (fuel + 1) depth (['n', 'u', 'l', 'l'] ++ rest) = .ok (.null, rest) ∧
    anyValue (fuel + 1) depth (['t', 'r', 'u', 'e'] ++ rest) = .ok (.bool true, rest) ∧
    anyValue (fuel + 1) depth (['f', 'a', 'l', 's', 'e'] ++ rest) = .ok (.bool false, rest) :=
  ⟨rfl, rfl, rfl⟩

theorem anyValue_array {fuel depth : Nat} (deep : 1 < depth) (text : List Char) :
    anyValue (fuel + 1) depth ('[' :: text) =
      (items (fun (found : List Value) text =>
          (anyValue fuel (depth - 1) text).map fun (v, rest) => (v :: found, rest))
        fuel true [] text).map fun (found, rest) => (.array found.reverse, rest) :=
  if_neg (Nat.not_le.2 deep)

theorem anyValue_object {fuel depth : Nat} (deep : 1 < depth) (text : List Char) :
    anyValue (fuel + 1) depth ('\x7b' :: text) =
      (members (member (anyValue fuel (depth - 1))) fuel true [] text).map
        fun (found, rest) => (.object found, rest) :=
  if_neg (Nat.not_le.2 deep)

/-- A value is read back from its text in any layout, where it may nest so deep: by induction on the
value, with room in the fuel for every part. -/
theorem Value.read_render {v : Value} (regular : v.Regular) (whole : v.Whole) {fuel depth : Nat}
    (room : (l.render level v).length < fuel) (nests : v.depth < depth) (ends : Ends rest) :
    anyValue fuel depth (l.render level v ++ rest) = .ok (v, rest) := by
  induction regular generalizing fuel depth level rest with
  -- A value without parts takes one step of the fuel, however much of it is left.
  | null =>
    obtain ⟨fuel, rfl⟩ := Nat.exists_eq_add_of_lt room
    rw [Layout.render]
    exact (anyValue_word _ depth).1
  | bool b =>
    obtain ⟨fuel, rfl⟩ := Nat.exists_eq_add_of_lt room
    cases b
    · rw [Layout.render]
      exact (anyValue_word _ depth).2.2
    · rw [Layout.render]
      exact (anyValue_word _ depth).2.1
  | whole low high =>
    obtain ⟨fuel, rfl⟩ := Nat.exists_eq_add_of_lt room
    rw [Layout.render]
    exact anyValue_number low high _ depth ends
  | binary x => cases whole
  | string s =>
    obtain ⟨fuel, rfl⟩ := Nat.exists_eq_add_of_lt room
    rw [Layout.render, writeString_append]
    change (textBody _).map _ = _
    rw [textBody_writeString]
    rfl
  | @array items all ih =>
    cases whole with | array whole =>
    obtain ⟨fuel, rfl⟩ := Nat.exists_eq_add_one_of_ne_zero (Nat.ne_zero_of_lt room)
    -- Every item has room in the fuel and the depth that are left, so it is read by induction.
    obtain ⟨count, each⟩ := room_of_array whole room
    obtain ⟨deep, nest⟩ := Value.depth_array_lt_iff.1 nests
    have reads : List.Forall₂ (fun v a => ∀ rest, Ends rest →
        anyValue fuel (depth - 1) (l.render (level + 1) v ++ rest) = .ok (a, rest)) items items :=
      List.forall₂_same.2 fun v member rest ends =>
        ih v member (whole v member) (each v member) (nest v member) ends
    have steps := steps_collect (fun v member => (whole v member).starts l (level + 1)) reads []
    have read := items_inside steps level rest count
    rw [Layout.render, Layout.enclose, List.cons_append, List.append_assoc, anyValue_array deep,
      read]
    simp [Except.map]
  | @object members sorted all ih =>
    cases whole with | object whole =>
    obtain ⟨fuel, rfl⟩ := Nat.exists_eq_add_one_of_ne_zero (Nat.ne_zero_of_lt room)
    obtain ⟨count, each⟩ := room_of_object room
    obtain ⟨deep, nest⟩ := Value.depth_object_lt_iff.1 nests
    -- The names are in order, so each member that is read comes behind those before it.
    have steps := steps_member l (level + 1) (anyValue fuel (depth - 1))
      (fun m held blanks rest spaces ends => by
        rw [anyValue_spaces spaces]
        exact ih m held (whole m held) (each m held) (nest m held) ends) [] sorted
    have read := members_inside steps level rest count
    rw [Layout.render, Layout.enclose, List.cons_append, List.append_assoc, anyValue_object deep,
      read]
    rfl

/-! ## Leaving a value out -/

theorem skipNumber_toDigits (n : Nat) (ends : Ends rest) :
    skipNumber (Nat.toDigits 10 n ++ rest) = .ok rest := by
  obtain ⟨digits, after⟩ := takeWhile_toDigits n ends
  rw [skipNumber]
  simp only [digits, after]
  split
  · next none => exact absurd none Nat.toDigits_ne_nil
  · next zero => exact absurd zero (toDigits_ne_zero_cons n _ _)
  · -- No point and no exponent may follow.
    cases rest with
    | nil => rfl
    | cons c rest =>
      have point : c ≠ '.' ∧ c ≠ 'e' ∧ c ≠ 'E' := by
        refine ⟨?_, ?_, ?_⟩ <;>
        · rintro rfl
          exact absurd (ends _ rfl) (by decide)
      simp [skipAfterDigits, point.1, point.2.1, point.2.2]

section Members

variable {skip : List Char → Except Fault (List Char)} {members : List (String × Value)}

/-- The value `v` after a name is left out by `skip`, in every layout and wherever it ends. -/
def Skips (skip : List Char → Except Fault (List Char)) (l : Layout) (level : Nat) (v : Value) :
    Prop :=
  ∀ blanks rest, Spaces blanks → Ends rest → skip (blanks ++ (l.render level v ++ rest)) = .ok rest

theorem skipMembers_others (skips : ∀ m ∈ members, Skips skip l level m.2) (spaces : Spaces blanks)
    (rest : List Char) {fuel : Nat} (room : members.length < fuel) :
    skipValue.skipMembers skip fuel false (l.others level (l.renderMembers level members) ++
      (blanks ++ '\x7d' :: rest)) = .ok rest := by
  induction members generalizing fuel with
  | nil =>
    obtain ⟨fuel, rfl⟩ := Nat.exists_eq_add_of_lt room
    have stop : isSpace '\x7d' = false := by decide
    simp [skipValue.skipMembers, Layout.renderMembers, Layout.others, skipSpaces_append spaces,
      skipSpaces_cons stop]
  | cons m members ih =>
    obtain ⟨name, v⟩ := m
    obtain ⟨fuel, rfl⟩ := Nat.exists_eq_add_of_lt room
    have quote : isSpace '"' = false := by decide
    have comma : isSpace ',' = false := by decide
    have ends : Ends (blanks ++ '\x7d' :: rest) := ends_append spaces (ends_cons (by simp))
    have tail := ih (fun m held => skips m (List.mem_cons_of_mem _ held))
      (show members.length < members.length + 1 + fuel by omega)
    -- The name, the colon and the value are left out one after the other.
    obtain ⟨_, -, text⟩ := textInside_flatMap false name.toList
      (':' :: (l.gap ++ (l.render level v ++
        (l.others level (l.renderMembers level members) ++ (blanks ++ '\x7d' :: rest)))))
    have value := skips (name, v) List.mem_cons_self l.gap _ l.gap_spaces
      (ends_others l level (l.renderMembers level members) ends)
    simp only [Layout.others] at text value tail
    simp [skipValue.skipMembers, Layout.others, Layout.renderMembers, skipSpaces_cons comma,
      skipSpaces_append (l.line_spaces level), renderMember_append, skipSpaces_cons quote, bind,
      Except.bind, text, colon_cons, value, tail]

theorem skipMembers_inside (skips : ∀ m ∈ members, Skips skip l level m.2) (depth : Nat)
    (rest : List Char) {fuel : Nat} (room : members.length < fuel) :
    skipValue.skipMembers skip fuel true (l.inside level (l.renderMembers level members) ++
      (l.ending depth (l.renderMembers level members) '\x7d' ++ rest)) = .ok rest := by
  obtain ⟨blanks, spaces, ending⟩ :=
    ending_append l depth (l.renderMembers level members) '\x7d' rest
  obtain ⟨fuel, rfl⟩ := Nat.exists_eq_add_of_lt room
  rw [ending]
  cases members with
  | nil =>
    -- Nothing but blanks stands between the braces.
    have stop : isSpace '\x7d' = false := by decide
    simp [skipValue.skipMembers, Layout.renderMembers, Layout.inside, skipSpaces_append spaces,
      skipSpaces_cons stop]
  | cons m members =>
    -- No comma stands before the first member; `skipMembers_others` leaves out the others.
    obtain ⟨name, v⟩ := m
    have quote : isSpace '"' = false := by decide
    have ends : Ends (blanks ++ '\x7d' :: rest) := ends_append spaces (ends_cons (by simp))
    have tail := skipMembers_others (fun m held => skips m (List.mem_cons_of_mem _ held)) spaces
      rest (show members.length < members.length + 1 + fuel by omega)
    obtain ⟨_, -, text⟩ := textInside_flatMap false name.toList
      (':' :: (l.gap ++ (l.render level v ++
        (l.others level (l.renderMembers level members) ++ (blanks ++ '\x7d' :: rest)))))
    have value := skips (name, v) List.mem_cons_self l.gap _ l.gap_spaces
      (ends_others l level (l.renderMembers level members) ends)
    simp [skipValue.skipMembers, Layout.inside, Layout.renderMembers,
      skipSpaces_append (l.line_spaces level), renderMember_append, skipSpaces_cons quote, bind,
      Except.bind, text, colon_cons, value, tail]

end Members

theorem skipValue_spaces (spaces : Spaces blanks) (fuel : Nat) (text : List Char) :
    skipValue fuel (blanks ++ text) = skipValue fuel text := by
  cases fuel with
  | zero => rfl
  | succ fuel => rw [skipValue, skipValue, skipSpaces_append spaces]

theorem skipValue_number (n : Int) (fuel : Nat) (ends : Ends rest) :
    skipValue (fuel + 1) (writeNumber (.int n) ++ rest) = .ok rest := by
  rcases writeNumber_cases n with ⟨-, c, cs, written, digit, digits⟩ | ⟨-, written⟩
  · obtain ⟨space, -, n1, n2, n3, n4, -⟩ := of_isDigit digit
    have skip := skipNumber_toDigits n.toNat ends
    rw [← digits, List.cons_append] at skip
    simp [written, skipValue, skipSpaces_cons space, n1, n2, n3, n4, digit, skip]
  · rw [written]
    exact skipNumber_toDigits n.natAbs ends

theorem steps_skip {skip : List Char → Except Fault (List Char)} {values : List Value}
    (all : ∀ v ∈ values, v.Whole ∧ ∀ rest, Ends rest →
      skip (l.render level v ++ rest) = .ok rest) :
    Steps l level (fun (_ : Unit) text => (skip text).map ((), ·)) () values () := by
  induction values with
  | nil => exact .nil ()
  | cons v values ih =>
    obtain ⟨⟨whole, skipped⟩, all⟩ := List.forall_mem_cons.1 all
    refine .cons (whole.starts l level) (fun rest ends => ?_) (ih all)
    rw [skipped rest ends]
    rfl

/-- A value without binary numbers can be left out, so members that no field has do no harm. -/
theorem Value.skip_render {v : Value} (whole : v.Whole) {fuel : Nat}
    (room : (l.render level v).length < fuel) (ends : Ends rest) :
    skipValue fuel (l.render level v ++ rest) = .ok rest := by
  induction whole generalizing fuel level rest with
  | null =>
    obtain ⟨fuel, rfl⟩ := Nat.exists_eq_add_of_lt room
    rw [Layout.render]
    rfl
  | bool b =>
    obtain ⟨fuel, rfl⟩ := Nat.exists_eq_add_of_lt room
    cases b
    · rw [Layout.render]
      rfl
    · rw [Layout.render]
      rfl
  | number n =>
    obtain ⟨fuel, rfl⟩ := Nat.exists_eq_add_of_lt room
    rw [Layout.render]
    exact skipValue_number n _ ends
  | string s =>
    obtain ⟨fuel, rfl⟩ := Nat.exists_eq_add_of_lt room
    -- Which text is read is of no matter, only where it ends.
    obtain ⟨_, -, text⟩ := textInside_flatMap false s.toList rest
    rw [Layout.render, writeString_append]
    change (textInside false 0 _).map _ = _
    rw [text]
    rfl
  | @array values whole ih =>
    obtain ⟨fuel, rfl⟩ := Nat.exists_eq_add_one_of_ne_zero (Nat.ne_zero_of_lt room)
    obtain ⟨count, each⟩ := room_of_array whole room
    have steps := steps_skip fun v member =>
      ⟨whole v member, fun rest ends => ih v member (each v member) ends⟩
    have read := items_inside steps level rest count
    rw [Layout.render, Layout.enclose, List.cons_append, List.append_assoc]
    change (items _ fuel true () _).map _ = _
    rw [read]
    rfl
  | @object members whole ih =>
    obtain ⟨fuel, rfl⟩ := Nat.exists_eq_add_one_of_ne_zero (Nat.ne_zero_of_lt room)
    obtain ⟨count, each⟩ := room_of_object room
    have skips : ∀ m ∈ members, Skips (skipValue fuel) l (level + 1) m.2 := by
      intro m held blanks rest spaces ends
      rw [skipValue_spaces spaces]
      exact ih m held (each m held) ends
    have read := skipMembers_inside skips level rest count
    rw [Layout.render, Layout.enclose, List.cons_append, List.append_assoc]
    exact read

end Vigil.Json
