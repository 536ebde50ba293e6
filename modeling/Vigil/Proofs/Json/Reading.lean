import Mathlib.Data.List.Forall2
import Vigil.Json.Reader
import Vigil.Proofs.Json.Layout

/-!
# Reading what was written

Each reader takes exactly the value off the front of a text in any layout, as long as no digit
follows it. A list or an object is read piece by piece, and what one piece does to the state of its
reader carries over to all of them.

The module introduces:

* `Ends`, what may follow a written value;
* `Steps`, pieces that a reader takes one after the other;
* `Decoder.Reads`, a value that a decoder reads in every layout.
-/

namespace Vigil.Json

/-- What may follow a value: nothing, a space, a comma, or the end of an array or an object. -/
def Ends (rest : List Char) : Prop :=
  ∀ c ∈ rest.head?, c = ',' ∨ c = ']' ∨ c = '\x7d' ∨ isSpace c = true

theorem ends_nil : Ends [] := fun _ h => by cases h

theorem ends_cons {c : Char} {rest : List Char}
    (h : c = ',' ∨ c = ']' ∨ c = '\x7d' ∨ isSpace c = true) : Ends (c :: rest) := by
  intro d first
  cases first
  exact h

theorem ends_append {cs rest : List Char} (spaces : Spaces cs) (h : Ends rest) :
    Ends (cs ++ rest) := by
  cases cs with
  | nil => exact h
  | cons c cs => exact ends_cons (.inr (.inr (.inr (spaces c List.mem_cons_self))))

/-! ## Texts -/

theorem hexValue?_hexDigit {n : Nat} (h : n < 16) : hexValue? (hexDigit n) = some n := by
  have all : ∀ n < 16, hexValue? (hexDigit n) = some n := by decide
  exact all n h

theorem numberedEscape_control {c : Char} (control : c.toNat < 0x20) (rest : List Char) :
    numberedEscape ('0' :: '0' :: hexDigit (c.toNat / 16) :: hexDigit (c.toNat % 16) :: rest) =
      .ok (c, 4) := by
  have zero : hexValue? '0' = some 0 := by decide
  have whole : c.toNat / 16 * 16 + c.toNat % 16 = c.toNat := by omega
  have back : Char.ofNat c.toNat = c := Char.ofNat_toNat c
  have hex : fourHex
      ('0' :: '0' :: hexDigit (c.toNat / 16) :: hexDigit (c.toNat % 16) :: rest) = .ok c.toNat := by
    simp only [fourHex, zero, hexValue?_hexDigit (show c.toNat / 16 < 16 by omega),
      hexValue?_hexDigit (show c.toNat % 16 < 16 by omega)]
    simp only [Nat.zero_mul, Nat.zero_add, whole]
  have low : ¬(0xDC00 ≤ c.toNat ∧ c.toNat ≤ 0xDFFF) := by omega
  have low' : c.toNat < 0xD800 ∨ 0xDBFF < c.toNat := by omega
  rw [numberedEscape, hex]
  simp only [bind, Except.bind, if_neg low, if_pos low', back]

def put (c : Char) : Reading (List Char) → Reading (List Char) :=
  Except.map fun (cs, rest) => (c :: cs, rest)

/-- A character is written as a short escape, as the escape of a control, or as it is: the three
cases of `escape`. -/
theorem escape_cases (c : Char) :
    (∃ e, shortEscape? e = some c ∧ e ≠ 'u' ∧ escape c = ['\\', e]) ∨
    (c.toNat < 0x20 ∧ escape c =
      ['\\', 'u', '0', '0', hexDigit (c.toNat / 16), hexDigit (c.toNat % 16)]) ∨
    (c ≠ '"' ∧ c ≠ '\\' ∧ ¬c.toNat < 0x20 ∧ escape c = [c]) := by
  by_cases control : c.toNat < 0x20
  · by_cases known : c = '\n' ∨ c = '\r' ∨ c = '\t' ∨ c = '\x08' ∨ c = '\x0c'
    · left
      rcases known with rfl | rfl | rfl | rfl | rfl
      · exact ⟨'n', by decide, by decide, by decide⟩
      · exact ⟨'r', by decide, by decide, by decide⟩
      · exact ⟨'t', by decide, by decide, by decide⟩
      · exact ⟨'b', by decide, by decide, by decide⟩
      · exact ⟨'f', by decide, by decide, by decide⟩
    · have quote : c ≠ '"' := by
        rintro rfl
        exact absurd control (by decide)
      have slash : c ≠ '\\' := by
        rintro rfl
        exact absurd control (by decide)
      simp only [not_or] at known
      obtain ⟨n, r, t, b, f⟩ := known
      refine .inr (.inl ⟨control, ?_⟩)
      simp [escape, quote, slash, n, r, t, b, f, control]
  · by_cases known : c = '"' ∨ c = '\\'
    · left
      rcases known with rfl | rfl
      · exact ⟨'"', by decide, by decide, by decide⟩
      · exact ⟨'\\', by decide, by decide, by decide⟩
    · simp only [not_or] at known
      -- The other escaped characters are controls.
      have other {d : Char} (h : d.toNat < 0x20) : c ≠ d := by
        rintro rfl
        exact control h
      have n : c ≠ '\n' := other (by decide)
      have r : c ≠ '\r' := other (by decide)
      have t : c ≠ '\t' := other (by decide)
      have b : c ≠ '\x08' := other (by decide)
      have f : c ≠ '\x0c' := other (by decide)
      refine .inr (.inr ⟨known.1, known.2, control, ?_⟩)
      simp [escape, known.1, known.2, n, r, t, b, f, control]

theorem textInside_of_front {keep : Bool} {c d : Char} {more rest : List Char}
    (first : front keep c (more ++ rest) = .ok (.char d more.length)) :
    textInside keep 0 (c :: (more ++ rest)) = put d (textInside keep 0 rest) := by
  have leave (cs : List Char) :
      textInside keep cs.length (cs ++ rest) = textInside keep 0 rest := by
    induction cs with
    | nil => rfl
    | cons c cs ih => simpa [textInside] using ih
  rw [textInside, first]
  simp only [leave]
  rcases textInside keep 0 rest with _ | ⟨cs, rest⟩ <;> rfl

/-- One character is read back from its `escape`; a reader that does not keep the text may take it
for another one. -/
theorem textInside_escape (keep : Bool) (c : Char) (rest : List Char) :
    ∃ d, (keep = true → d = c) ∧
      textInside keep 0 (escape c ++ rest) = put d (textInside keep 0 rest) := by
  rcases escape_cases c with ⟨e, known, other, written⟩ | ⟨control, written⟩ |
    ⟨noQuote, noSlash, plain, written⟩
  · have first : front keep '\\' ([e] ++ rest) = .ok (.char c 1) := by
      simp [front, other, known]
    rw [written]
    exact ⟨c, fun _ => rfl, textInside_of_front first⟩
  · -- Only a reader that keeps the text looks up which character the number stands for.
    have zero : hexValue? '0' = some 0 := by decide
    have high := hexValue?_hexDigit (show c.toNat / 16 < 16 by omega)
    have low := hexValue?_hexDigit (show c.toNat % 16 < 16 by omega)
    have first : ∃ d, (keep = true → d = c) ∧ front keep '\\' (['u', '0', '0',
        hexDigit (c.toNat / 16), hexDigit (c.toNat % 16)] ++ rest) = .ok (.char d 5) := by
      cases keep with
      | true =>
        refine ⟨c, fun _ => rfl, ?_⟩
        simp [front, numberedEscape_control control, Except.map]
      | false =>
        refine ⟨'\uFFFD', fun h => (Bool.false_ne_true h).elim, ?_⟩
        simp [front, fourHex, zero, high, low, Except.map]
    obtain ⟨d, same, first⟩ := first
    rw [written]
    exact ⟨d, same, textInside_of_front first⟩
  · have first : front keep c ([] ++ rest) = .ok (.char c 0) := by
      simp [front, noQuote, noSlash, plain]
    rw [written]
    exact ⟨c, fun _ => rfl, textInside_of_front first⟩

/-- The inside of a written text is read up to its closing quote, by induction on its characters. -/
theorem textInside_flatMap (keep : Bool) (cs rest : List Char) :
    ∃ ds, (keep = true → ds = cs) ∧
      textInside keep 0 (cs.flatMap escape ++ '"' :: rest) = .ok (ds, rest) := by
  induction cs with
  | nil => exact ⟨[], fun _ => rfl, by simp [textInside, front]⟩
  | cons c cs ih =>
    obtain ⟨ds, same, read⟩ := ih
    obtain ⟨d, first, step⟩ := textInside_escape keep c (cs.flatMap escape ++ '"' :: rest)
    refine ⟨d :: ds, fun h => by rw [first h, same h], ?_⟩
    rw [List.flatMap_cons, List.append_assoc, step, read]
    rfl

theorem textBody_writeString (s : String) (rest : List Char) :
    textBody (s.toList.flatMap escape ++ '"' :: rest) = .ok (s, rest) := by
  obtain ⟨ds, same, read⟩ := textInside_flatMap true s.toList rest
  rw [textBody, read, same rfl]
  simp [Except.map]

theorem writeString_append (s : String) (rest : List Char) :
    writeString s ++ rest = '"' :: (s.toList.flatMap escape ++ '"' :: rest) := by
  simp [writeString]

/-! ## Numbers -/

/-- Digits that stay within 64 bits are all kept by `extend`. -/
theorem extend_eq {digits : List Char} {start : Nat}
    (fits : Nat.ofDigitChars 10 digits start ≤ maxWord) :
    extend start digits = (Nat.ofDigitChars 10 digits start, 0) := by
  induction digits generalizing start with
  | nil => rfl
  | cons c digits ih =>
    rw [Nat.ofDigitChars_cons] at fits ⊢
    have next : start * 10 + digitValue c = 10 * start + (c.toNat - '0'.toNat) := by
      rw [digitValue, Nat.mul_comm]
      rfl
    have small : start * 10 + digitValue c ≤ maxWord := by
      refine Nat.le_trans ?_ fits
      rw [next, Nat.ofDigitChars_eq_ofDigitChars_zero]
      exact Nat.le_trans (Nat.le_mul_of_pos_left _ (Nat.pow_pos (by decide)))
        (Nat.le_add_right _ _)
    rw [extend, if_neg (Nat.not_lt.2 small), next]
    exact ih fits

theorem head_toDigits {n : Nat} (pos : 0 < n) : ∀ c ∈ (Nat.toDigits 10 n).head?, c ≠ '0' := by
  induction n using Nat.strongRecOn with
  | ind n ih =>
    rw [Nat.toDigits_eq_if (by decide)]
    split
    · next small =>
      intro c first
      cases first
      have digits : ∀ n < 10, 0 < n → n.digitChar ≠ '0' := by decide
      exact digits n small pos
    · next large =>
      intro c first
      rw [List.head?_append, Option.mem_def, Option.or_of_isSome (by simp)] at first
      exact ih (n / 10) (by omega) (by omega) c first

theorem toDigits_ne_zero_cons (n : Nat) (c : Char) (cs : List Char) :
    Nat.toDigits 10 n ≠ '0' :: c :: cs := by
  intro same
  rcases Nat.eq_zero_or_pos n with rfl | pos
  · rw [Nat.toDigits_zero] at same
    cases same
  · exact head_toDigits pos '0' (by rw [same]; rfl) rfl

theorem isDigit_eq_false {c : Char}
    (h : c = ',' ∨ c = ']' ∨ c = '\x7d' ∨ isSpace c = true) : c.isDigit = false := by
  rcases h with rfl | rfl | rfl | h
  · decide
  · decide
  · decide
  · simp only [isSpace, Bool.or_eq_true, beq_iff_eq] at h
    rcases h with ((rfl | rfl) | rfl) | rfl <;> decide

theorem Ends.no_digit {rest : List Char} (ends : Ends rest) :
    rest.takeWhile Char.isDigit = [] ∧ rest.dropWhile Char.isDigit = rest := by
  cases rest with
  | nil => exact ⟨rfl, rfl⟩
  | cons c rest =>
    have no : c.isDigit = false := isDigit_eq_false (ends c rfl)
    simp [no]

theorem takeWhile_toDigits (n : Nat) {rest : List Char} (ends : Ends rest) :
    (Nat.toDigits 10 n ++ rest).takeWhile Char.isDigit = Nat.toDigits 10 n ∧
      (Nat.toDigits 10 n ++ rest).dropWhile Char.isDigit = rest := by
  have digits : ∀ c ∈ Nat.toDigits 10 n, c.isDigit = true :=
    fun c h => Nat.isDigit_of_mem_toDigits (by decide) (by decide) h
  rw [List.takeWhile_append_of_pos digits, List.dropWhile_append_of_pos digits, ends.no_digit.1,
    ends.no_digit.2, List.append_nil]
  exact ⟨rfl, rfl⟩

/-- A natural number of 64 bits is read back from its digits, where they end. -/
theorem numberBody_toDigits (positive : Bool) {n : Nat} (fits : n ≤ maxWord) {rest : List Char}
    (ends : Ends rest) : numberBody positive (Nat.toDigits 10 n ++ rest) =
      (wholeNumber positive n).map (·, rest) := by
  obtain ⟨digits, after⟩ := takeWhile_toDigits n ends
  have value : extend 0 (Nat.toDigits 10 n) = (n, 0) := by
    rw [extend_eq] <;> rw [Nat.ofDigitChars_ten_toDigits]
    exact fits
  rw [numberBody]
  simp only [digits, after]
  split
  · next none => exact absurd none Nat.toDigits_ne_nil
  · next zero => exact absurd zero (toDigits_ne_zero_cons n _ _)
  · simp only [value]
    -- No point and no exponent may follow.
    split
    · exact absurd (ends _ rfl) (by decide)
    · exact absurd (ends _ rfl) (by decide)
    · exact absurd (ends _ rfl) (by decide)
    · rfl

/-! ## Lists and objects -/

section Pieces

variable {σ : Type} {l : Layout} {level : Nat} {blanks rest : List Char}

/-- A piece begins with a character that neither may be left out nor ends a list, so that a reader
knows it. -/
def Starts (piece : List Char) : Prop :=
  ∃ c cs, piece = c :: cs ∧ isSpace c = false ∧ c ≠ ']'

theorem ends_others (l : Layout) (level : Nat) (pieces : List (List Char)) {after : List Char}
    (ends : Ends after) : Ends (l.others level pieces ++ after) := by
  cases pieces with
  | nil => exact ends
  | cons piece pieces => exact ends_cons (.inl rfl)

theorem ending_append (l : Layout) (depth : Nat) (pieces : List (List Char)) (last : Char)
    (rest : List Char) :
    ∃ blanks, Spaces blanks ∧ l.ending depth pieces last ++ rest = blanks ++ last :: rest := by
  unfold Layout.ending
  split
  · exact ⟨[], spaces_nil, rfl⟩
  · exact ⟨l.line depth, l.line_spaces depth, by simp⟩

/-- The items of an array in the layout `l`, which a reader takes one after the other by `step`. -/
inductive Steps (l : Layout) (level : Nat) (step : σ → List Char → Reading σ) :
    σ → List Value → σ → Prop
  | nil (s : σ) : Steps l level step s [] s
  | cons {s t u : σ} {v : Value} {items : List Value} (starts : Starts (l.render level v))
      (read : ∀ rest, Ends rest → step s (l.render level v ++ rest) = .ok (t, rest))
      (more : Steps l level step t items u) : Steps l level step s (v :: items) u

variable {step : σ → List Char → Reading σ} {s s' : σ} {values : List Value}

theorem items_others (steps : Steps l level step s values s') (spaces : Spaces blanks) {fuel : Nat}
    (room : values.length < fuel) :
    items step fuel false s
      (l.others level (l.renderItems level values) ++ (blanks ++ ']' :: rest)) =
        .ok (s', rest) := by
  induction steps generalizing fuel with
  | nil s =>
    obtain ⟨fuel, rfl⟩ := Nat.exists_eq_add_of_lt room
    have close : skipSpaces (blanks ++ ']' :: rest) = ']' :: rest := by
      rw [skipSpaces_append spaces, skipSpaces_cons (by decide)]
    simp [items, Layout.renderItems, Layout.others, nextItem, closeArray, close, bind, Except.bind]
  | @cons s t u v values starts read more ih =>
    obtain ⟨fuel, rfl⟩ := Nat.exists_eq_add_of_lt room
    obtain ⟨c, cs, same, first, other⟩ := starts
    have ends : Ends (blanks ++ ']' :: rest) := ends_append spaces (ends_cons (by simp))
    -- A comma and the spaces of the layout stand before the item.
    have next : nextItem false
        (l.others level (l.renderItems level (v :: values)) ++ (blanks ++ ']' :: rest)) =
        .ok (some (l.render level v ++
          (l.others level (l.renderItems level values) ++ (blanks ++ ']' :: rest)))) := by
      have comma : isSpace ',' = false := by decide
      simp [nextItem, Layout.renderItems, Layout.others, skipSpaces_cons comma,
        skipSpaces_append (l.line_spaces level), same, skipSpaces_cons first, other]
    simp only [items, next, bind, Except.bind, read _ (ends_others l level _ ends)]
    exact ih (by simp; omega)

/-- The items of an array in a layout are read, by induction on their steps. -/
theorem items_inside (steps : Steps l level step s values s') (depth : Nat) (rest : List Char)
    {fuel : Nat} (room : values.length < fuel) :
    items step fuel true s (l.inside level (l.renderItems level values) ++
      (l.ending depth (l.renderItems level values) ']' ++ rest)) = .ok (s', rest) := by
  obtain ⟨fuel, rfl⟩ := Nat.exists_eq_add_of_lt room
  obtain ⟨blanks, spaces, ending⟩ :=
    ending_append l depth (l.renderItems level values) ']' rest
  rw [ending]
  cases steps with
  | nil s =>
    -- Nothing but blanks stands between the brackets.
    have close : skipSpaces (blanks ++ ']' :: rest) = ']' :: rest := by
      rw [skipSpaces_append spaces, skipSpaces_cons (by decide)]
    simp [items, Layout.renderItems, Layout.inside, nextItem, closeArray, close, bind, Except.bind]
  | @cons s t u v values starts read more =>
    -- No comma stands before the first item; `items_others` reads the others.
    obtain ⟨c, cs, same, first, other⟩ := starts
    have ends : Ends (blanks ++ ']' :: rest) := ends_append spaces (ends_cons (by simp))
    have next : nextItem true
        (l.inside level (l.renderItems level (v :: values)) ++ (blanks ++ ']' :: rest)) =
        .ok (some (l.render level v ++
          (l.others level (l.renderItems level values) ++ (blanks ++ ']' :: rest)))) := by
      simp [nextItem, Layout.renderItems, Layout.inside, skipSpaces_append (l.line_spaces level),
        same, skipSpaces_cons first, other]
    simp only [items, next, bind, Except.bind, read _ (ends_others l level _ ends)]
    exact items_others more spaces (by simp; omega)

/-- Items that are read one after the other are collected, the last one first. -/
theorem steps_collect {α : Type} {read : List Char → Reading α} {values : List Value} {as : List α}
    (starts : ∀ v ∈ values, Starts (l.render level v))
    (reads : List.Forall₂ (fun v a => ∀ rest, Ends rest →
      read (l.render level v ++ rest) = .ok (a, rest)) values as) (found : List α) :
    Steps l level (fun found text => (read text).map fun (a, rest) => (a :: found, rest)) found
      values (as.reverse ++ found) := by
  induction reads generalizing found with
  | nil => exact .nil found
  | @cons v a values as first _ ih =>
    obtain ⟨start, starts⟩ := List.forall_mem_cons.1 starts
    refine .cons (t := a :: found) start (fun rest ends => ?_) ?_
    · rw [first rest ends]
      rfl
    · rw [List.reverse_cons, List.append_assoc]
      exact ih starts (a :: found)

/-- The members of an object in the layout `l`, which a reader takes one after the other by
`step`. -/
inductive MemberSteps (l : Layout) (level : Nat) (step : String → σ → List Char → Reading σ) :
    σ → List (String × Value) → σ → Prop
  | nil (s : σ) : MemberSteps l level step s [] s
  | cons {s t u : σ} {name : String} {v : Value} {members : List (String × Value)}
      (read : ∀ rest, Ends rest →
        step name s (':' :: (l.gap ++ (l.render level v ++ rest))) = .ok (t, rest))
      (more : MemberSteps l level step t members u) :
      MemberSteps l level step s ((name, v) :: members) u

theorem colon_cons (rest : List Char) : colon (':' :: rest) = .ok rest := by
  rw [colon, skipSpaces_cons (by decide)]
  rfl

theorem renderMember_append (name : String) (v : Value) (rest : List Char) :
    l.renderMember level (name, v) ++ rest = '"' :: (name.toList.flatMap escape ++
      '"' :: ':' :: (l.gap ++ (l.render level v ++ rest))) := by
  simp [Layout.renderMember, writeString]

variable {step : String → σ → List Char → Reading σ} {entries : List (String × Value)}

theorem members_others (steps : MemberSteps l level step s entries s') (spaces : Spaces blanks)
    {fuel : Nat} (room : entries.length < fuel) :
    members step fuel false s (l.others level (l.renderMembers level entries) ++
      (blanks ++ '\x7d' :: rest)) = .ok (s', rest) := by
  induction steps generalizing fuel with
  | nil s =>
    obtain ⟨fuel, rfl⟩ := Nat.exists_eq_add_of_lt room
    have close : skipSpaces (blanks ++ '\x7d' :: rest) = '\x7d' :: rest := by
      rw [skipSpaces_append spaces, skipSpaces_cons (by decide)]
    simp [members, Layout.renderMembers, Layout.others, nextMember, close, bind, Except.bind]
  | @cons s t u name v entries read more ih =>
    obtain ⟨fuel, rfl⟩ := Nat.exists_eq_add_of_lt room
    have ends : Ends (blanks ++ '\x7d' :: rest) := ends_append spaces (ends_cons (by simp))
    -- A comma and the spaces of the layout stand before the name.
    have next : nextMember false
        (l.others level (l.renderMembers level ((name, v) :: entries)) ++
          (blanks ++ '\x7d' :: rest)) =
        .ok (some name, ':' :: (l.gap ++ (l.render level v ++
          (l.others level (l.renderMembers level entries) ++ (blanks ++ '\x7d' :: rest))))) := by
      have comma : isSpace ',' = false := by decide
      have quote : isSpace '"' = false := by decide
      simp [nextMember, Layout.renderMembers, Layout.others, skipSpaces_cons comma,
        skipSpaces_append (l.line_spaces level), renderMember_append, skipSpaces_cons quote,
        textBody_writeString, Except.map]
    simp only [members, next, bind, Except.bind, read _ (ends_others l level _ ends)]
    exact ih (by simp; omega)

/-- The members of an object in a layout are read, by induction on their steps. -/
theorem members_inside (steps : MemberSteps l level step s entries s') (depth : Nat)
    (rest : List Char) {fuel : Nat} (room : entries.length < fuel) :
    members step fuel true s (l.inside level (l.renderMembers level entries) ++
      (l.ending depth (l.renderMembers level entries) '\x7d' ++ rest)) = .ok (s', rest) := by
  obtain ⟨fuel, rfl⟩ := Nat.exists_eq_add_of_lt room
  obtain ⟨blanks, spaces, ending⟩ :=
    ending_append l depth (l.renderMembers level entries) '\x7d' rest
  rw [ending]
  cases steps with
  | nil s =>
    -- Nothing but blanks stands between the braces.
    have close : skipSpaces (blanks ++ '\x7d' :: rest) = '\x7d' :: rest := by
      rw [skipSpaces_append spaces, skipSpaces_cons (by decide)]
    simp [members, Layout.renderMembers, Layout.inside, nextMember, close, bind, Except.bind]
  | @cons s t u name v entries read more =>
    -- No comma stands before the first member; `members_others` reads the others.
    have ends : Ends (blanks ++ '\x7d' :: rest) := ends_append spaces (ends_cons (by simp))
    have next : nextMember true
        (l.inside level (l.renderMembers level ((name, v) :: entries)) ++
          (blanks ++ '\x7d' :: rest)) =
        .ok (some name, ':' :: (l.gap ++ (l.render level v ++
          (l.others level (l.renderMembers level entries) ++ (blanks ++ '\x7d' :: rest))))) := by
      have quote : isSpace '"' = false := by decide
      simp [nextMember, Layout.renderMembers, Layout.inside,
        skipSpaces_append (l.line_spaces level), renderMember_append, skipSpaces_cons quote,
        textBody_writeString, Except.map]
    simp only [members, next, bind, Except.bind, read _ (ends_others l level _ ends)]
    exact members_others more spaces (by simp; omega)

end Pieces

end Vigil.Json
