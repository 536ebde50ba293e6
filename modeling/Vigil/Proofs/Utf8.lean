import Mathlib.Data.List.Induction
import Vigil.Text.Utf8

/-!
# Texts and their octets

Octets that are read strictly are those of the text that is read, and the octets of every text are
read as that text. So strict reading and writing are inverse to each other, and octets that no text
has are refused.
-/

namespace Vigil.Text

/-! ## One character -/

theorem isTail_iff {b : UInt8} : isTail b = true ↔ 128 ≤ b.toNat ∧ b.toNat ≤ 191 := by
  simp [isTail, UInt8.le_iff_toNat_le]

theorem between_iff {low high b : UInt8} :
    between (low, high) b = true ↔ low.toNat ≤ b.toNat ∧ b.toNat ≤ high.toNat := by
  simp [between, UInt8.le_iff_toNat_le]

theorem between_secondOfThree_iff {a b : UInt8} :
    between (secondOfThree a) b = true ↔
      (if a.toNat = 224 then 160 else 128) ≤ b.toNat ∧
      b.toNat ≤ if a.toNat = 237 then 159 else 191 := by
  unfold secondOfThree
  split
  · next first => simp [first, between_iff]
  · next notFirst =>
    have other : a.toNat ≠ 224 := fun h => notFirst (UInt8.toNat_inj.1 h)
    rw [if_neg other]
    split
    · next last => simp [last, between_iff]
    · next notLast =>
      have other' : a.toNat ≠ 237 := fun h => notLast (UInt8.toNat_inj.1 h)
      simp [other', between_iff]

theorem between_secondOfFour_iff {a b : UInt8} :
    between (secondOfFour a) b = true ↔
      (if a.toNat = 240 then 144 else 128) ≤ b.toNat ∧
      b.toNat ≤ if a.toNat = 244 then 143 else 191 := by
  unfold secondOfFour
  split
  · next first => simp [first, between_iff]
  · next notFirst =>
    have other : a.toNat ≠ 240 := fun h => notFirst (UInt8.toNat_inj.1 h)
    rw [if_neg other]
    split
    · next last => simp [last, between_iff]
    · next notLast =>
      have other' : a.toNat ≠ 244 := fun h => notLast (UInt8.toNat_inj.1 h)
      simp [other', between_iff]

/-- The octets of a character and its number, by how many octets it takes: the table of the
encoding. -/
inductive WellFormed : List UInt8 → Nat → Prop
  | one {a : UInt8} (ha : a.toNat < 128) : WellFormed [a] a.toNat
  | two {a b : UInt8} (low : 194 ≤ a.toNat) (high : a.toNat ≤ 223)
      (hb : 128 ≤ b.toNat ∧ b.toNat ≤ 191) :
      WellFormed [a, b] (a.toNat % 32 * 64 + b.toNat % 64)
  | three {a b c : UInt8} (low : 224 ≤ a.toNat) (high : a.toNat ≤ 239)
      (hb : (if a.toNat = 224 then 160 else 128) ≤ b.toNat ∧
        b.toNat ≤ if a.toNat = 237 then 159 else 191)
      (hc : 128 ≤ c.toNat ∧ c.toNat ≤ 191) :
      WellFormed [a, b, c] (a.toNat % 16 * 4096 + b.toNat % 64 * 64 + c.toNat % 64)
  | four {a b c d : UInt8} (low : 240 ≤ a.toNat) (high : a.toNat ≤ 244)
      (hb : (if a.toNat = 240 then 144 else 128) ≤ b.toNat ∧
        b.toNat ≤ if a.toNat = 244 then 143 else 191)
      (hc : 128 ≤ c.toNat ∧ c.toNat ≤ 191) (hd : 128 ≤ d.toNat ∧ d.toNat ≤ 191) :
      WellFormed [a, b, c, d]
        (a.toNat % 8 * 262144 + b.toNat % 64 * 4096 + c.toNat % 64 * 64 + d.toNat % 64)

/-- Well-formed octets are read as their character by `frontRun`, whatever follows. -/
theorem WellFormed.frontRun {a : UInt8} {more : List UInt8} {n : Nat}
    (h : WellFormed (a :: more) n) (rest : List UInt8) :
    frontRun a (more ++ rest) = (some (Char.ofNat n), more.length) := by
  have bounds : (a < 0x80 ↔ a.toNat < 128) ∧ (0xC2 ≤ a ∧ a ≤ 0xDF ↔ 194 ≤ a.toNat ∧ a.toNat ≤ 223) ∧
      (0xE0 ≤ a ∧ a ≤ 0xEF ↔ 224 ≤ a.toNat ∧ a.toNat ≤ 239) ∧
      (0xF0 ≤ a ∧ a ≤ 0xF4 ↔ 240 ≤ a.toNat ∧ a.toNat ≤ 244) := by
    simp [UInt8.lt_iff_toNat_lt, UInt8.le_iff_toNat_le]
  obtain ⟨one, two, three, four⟩ := bounds
  -- The first octet says how many there are, so the tests before its own one fail.
  cases h with
  | one ha => simp [Text.frontRun, one.2 ha]
  | two low high hb =>
    have no : ¬a < 0x80 := by rw [one]; omega
    simp only [List.cons_append, List.nil_append, Text.frontRun, if_neg no,
      if_pos (two.2 ⟨low, high⟩), if_pos (isTail_iff.2 hb)]
    rfl
  | three low high hb hc =>
    have no : ¬a < 0x80 := by rw [one]; omega
    have no' : ¬(0xC2 ≤ a ∧ a ≤ 0xDF) := by rw [two]; omega
    simp only [List.cons_append, List.nil_append, Text.frontRun, if_neg no, if_neg no',
      if_pos (three.2 ⟨low, high⟩), if_pos (between_secondOfThree_iff.2 hb),
      if_pos (isTail_iff.2 hc)]
    rfl
  | four low high hb hc hd =>
    have no : ¬a < 0x80 := by rw [one]; omega
    have no' : ¬(0xC2 ≤ a ∧ a ≤ 0xDF) := by rw [two]; omega
    have no'' : ¬(0xE0 ≤ a ∧ a ≤ 0xEF) := by rw [three]; omega
    simp only [List.cons_append, List.nil_append, Text.frontRun, if_neg no, if_neg no', if_neg no'',
      if_pos (four.2 ⟨low, high⟩), if_pos (between_secondOfFour_iff.2 hb),
      if_pos (isTail_iff.2 hc), if_pos (isTail_iff.2 hd)]
    rfl

/-- What `frontRun` reads as a character are well-formed octets, so it accepts nothing else. -/
theorem wellFormed_of_frontRun {a : UInt8} {rest : List UInt8} {c : Char} {k : Nat}
    (read : frontRun a rest = (some c, k)) :
    ∃ more after n, rest = more ++ after ∧ k = more.length ∧ WellFormed (a :: more) n ∧
      c = Char.ofNat n := by
  -- The case splits are those of the reader: how many octets the first one asks for, and then
  -- whether the others are what they have to be.
  unfold frontRun at read
  split at read
  · next small =>
    cases read
    exact ⟨[], rest, _, rfl, rfl, .one (UInt8.lt_iff_toNat_lt.1 small), rfl⟩
  · split at read
    · next two =>
      have low : 194 ≤ a.toNat := UInt8.le_iff_toNat_le.1 two.1
      have high : a.toNat ≤ 223 := UInt8.le_iff_toNat_le.1 two.2
      split at read
      · next b after =>
        split at read
        · next tail =>
          cases read
          exact ⟨[b], after, _, rfl, rfl, .two low high (isTail_iff.1 tail), rfl⟩
        · cases read
      · cases read
    · split at read
      · next three =>
        have low : 224 ≤ a.toNat := UInt8.le_iff_toNat_le.1 three.1
        have high : a.toNat ≤ 239 := UInt8.le_iff_toNat_le.1 three.2
        split at read
        · next b c' after =>
          split at read
          · next second =>
            split at read
            · next tail =>
              cases read
              exact ⟨[b, c'], after, _, rfl, rfl, .three low high
                (between_secondOfThree_iff.1 second) (isTail_iff.1 tail), rfl⟩
            · cases read
          · cases read
        · cases read
        · cases read
      · split at read
        · next four =>
          have low : 240 ≤ a.toNat := UInt8.le_iff_toNat_le.1 four.1
          have high : a.toNat ≤ 244 := UInt8.le_iff_toNat_le.1 four.2
          split at read
          · next b c' d after =>
            split at read
            · next second =>
              split at read
              · next tail =>
                split at read
                · next tail' =>
                  cases read
                  exact ⟨[b, c', d], after, _, rfl, rfl, .four low high
                    (between_secondOfFour_iff.1 second) (isTail_iff.1 tail) (isTail_iff.1 tail'),
                    rfl⟩
                · cases read
              · cases read
            · cases read
          · cases read
          · cases read
          · cases read
        · cases read

theorem WellFormed.encode {octets : List UInt8} {n : Nat} (h : WellFormed octets n) :
    String.utf8EncodeChar (Char.ofNat n) = octets := by
  have value (valid : n.isValidChar) : (Char.ofNat n).val.toNat = n := by
    rw [Char.ofNat, dif_pos valid]
    rfl
  have octet {k : Nat} {b : UInt8} (same : k = b.toNat) : UInt8.ofNat k = b := by
    rw [same, UInt8.ofNat_toNat]
  unfold String.utf8EncodeChar
  cases h with
  | @one a ha =>
    rw [value (by unfold Nat.isValidChar; omega)]
    simp only []
    rw [if_pos (by omega), octet rfl]
  | @two a b low high hb =>
    rw [value (by unfold Nat.isValidChar; omega)]
    simp only []
    rw [if_neg (by omega), if_pos (by omega), octet (b := a) (by omega), octet (b := b) (by omega)]
  | @three a b c low high hb hc =>
    -- The bounds of the second octet leave out what is written shorter, and the surrogates.
    have second : 32 ≤ b.toNat % 64 ∨ a.toNat ≠ 224 := by split at hb <;> split at hb <;> omega
    have third : b.toNat % 64 < 32 ∨ a.toNat ≠ 237 := by split at hb <;> split at hb <;> omega
    have tail : 128 ≤ b.toNat ∧ b.toNat ≤ 191 := by split at hb <;> split at hb <;> omega
    clear hb
    rw [value (by unfold Nat.isValidChar; omega)]
    simp only []
    rw [if_neg (by omega), if_neg (by omega), if_pos (by omega), octet (b := a) (by omega),
      octet (b := b) (by omega), octet (b := c) (by omega)]
  | @four a b c d low high hb hc hd =>
    -- Here they leave out what is written shorter, and what is no character any more.
    have second : 16 ≤ b.toNat % 64 ∨ a.toNat ≠ 240 := by split at hb <;> split at hb <;> omega
    have third : b.toNat % 64 < 16 ∨ a.toNat ≠ 244 := by split at hb <;> split at hb <;> omega
    have tail : 128 ≤ b.toNat ∧ b.toNat ≤ 191 := by split at hb <;> split at hb <;> omega
    clear hb
    rw [value (by unfold Nat.isValidChar; omega)]
    simp only []
    rw [if_neg (by omega), if_neg (by omega), if_neg (by omega), octet (b := a) (by omega),
      octet (b := b) (by omega), octet (b := c) (by omega), octet (b := d) (by omega)]

theorem wellFormed_encode (c : Char) : WellFormed (String.utf8EncodeChar c) c.toNat := by
  have valid : c.val.toNat < 55296 ∨ 57343 < c.val.toNat ∧ c.val.toNat < 1114112 := c.valid
  have octet {k : Nat} (small : k < 256) : (UInt8.ofNat k).toNat = k := by
    rw [UInt8.toNat_ofNat', Nat.mod_eq_of_lt small]
  show WellFormed _ c.val.toNat
  unfold String.utf8EncodeChar
  -- From here on it is arithmetic: the digits of a number to the base 64 make it up again.
  generalize c.val.toNat = n at valid ⊢
  dsimp only
  split
  · have h := WellFormed.one (a := UInt8.ofNat n) (by rw [octet] <;> omega)
    rwa [octet (by omega)] at h
  · split
    · have a := octet (k := n / 64 % 32 + 192) (by omega)
      have b := octet (k := n % 64 + 128) (by omega)
      have h := WellFormed.two (a := .ofNat (n / 64 % 32 + 192)) (b := .ofNat (n % 64 + 128))
        (by omega) (by omega) (by omega)
      have value : (n / 64 % 32 + 192) % 32 * 64 + (n % 64 + 128) % 64 = n := by omega
      rwa [a, b, value] at h
    · split
      · have a := octet (k := n / 4096 % 16 + 224) (by omega)
        have b := octet (k := n / 64 % 64 + 128) (by omega)
        have c := octet (k := n % 64 + 128) (by omega)
        have h := WellFormed.three (a := .ofNat (n / 4096 % 16 + 224))
          (b := .ofNat (n / 64 % 64 + 128)) (c := .ofNat (n % 64 + 128)) (by omega) (by omega)
          (by rw [a, b]; split <;> split <;> omega) (by omega)
        have value : (n / 4096 % 16 + 224) % 16 * 4096 + (n / 64 % 64 + 128) % 64 * 64 +
            (n % 64 + 128) % 64 = n := by omega
        rwa [a, b, c, value] at h
      · have a := octet (k := n / 262144 % 8 + 240) (by omega)
        have b := octet (k := n / 4096 % 64 + 128) (by omega)
        have c := octet (k := n / 64 % 64 + 128) (by omega)
        have d := octet (k := n % 64 + 128) (by omega)
        have h := WellFormed.four (a := .ofNat (n / 262144 % 8 + 240))
          (b := .ofNat (n / 4096 % 64 + 128)) (c := .ofNat (n / 64 % 64 + 128))
          (d := .ofNat (n % 64 + 128)) (by omega) (by omega)
          (by rw [a, b]; split <;> split <;> omega) (by omega) (by omega)
        have value : (n / 262144 % 8 + 240) % 8 * 262144 + (n / 4096 % 64 + 128) % 64 * 4096 +
            (n / 64 % 64 + 128) % 64 * 64 + (n % 64 + 128) % 64 = n := by omega
        rwa [a, b, c, d, value] at h

/-! ## Texts -/

theorem decodeRunsFrom_append (front rest : List UInt8) :
    decodeRunsFrom front.length (front ++ rest) = decodeRuns rest := by
  induction front with
  | nil => rfl
  | cons a front ih => exact ih

/-- A character at the front is read before the rest, as one run of `decodeRuns`. -/
theorem decodeRuns_encode_append (c : Char) (rest : List UInt8) :
    decodeRuns (String.utf8EncodeChar c ++ rest) = some c :: decodeRuns rest := by
  have formed := wellFormed_encode c
  cases octets : String.utf8EncodeChar c with
  | nil =>
    rw [octets] at formed
    cases formed
  | cons a more =>
    rw [octets] at formed
    have front := formed.frontRun rest
    rw [Char.ofNat_toNat] at front
    show decodeRunsFrom 0 (a :: (more ++ rest)) = _
    rw [decodeRunsFrom, front, decodeRunsFrom_append]

def encodeChars (cs : List Char) : List UInt8 := cs.flatMap String.utf8EncodeChar

theorem decodeRuns_encodeChars (cs : List Char) : decodeRuns (encodeChars cs) = cs.map some := by
  induction cs with
  | nil => rfl
  | cons c cs ih => rw [encodeChars, List.flatMap_cons, decodeRuns_encode_append, List.map_cons,
      ← ih, encodeChars]

/-- Octets of which all runs are characters are those of the characters, by induction on their
number. -/
theorem eq_encodeChars {octets : List UInt8} {cs : List Char}
    (read : decodeRuns octets = cs.map some) : octets = encodeChars cs := by
  induction cs generalizing octets with
  | nil =>
    cases octets with
    | nil => rfl
    | cons a rest => cases read
  | cons c cs ih =>
    cases octets with
    | nil => cases read
    | cons a rest =>
      rcases front : frontRun a rest with ⟨found, k⟩
      rw [decodeRuns, decodeRunsFrom, front, List.map_cons, List.cons.injEq] at read
      obtain ⟨rfl, others⟩ := read
      obtain ⟨more, after, n, rfl, rfl, formed, rfl⟩ := wellFormed_of_frontRun front
      rw [decodeRunsFrom_append] at others
      rw [encodeChars, List.flatMap_cons, formed.encode, List.cons_append, ← encodeChars,
        ← ih others]

theorem toList_eq_data (octets : ByteArray) : octets.toList = octets.data.toList := by
  have loop (i : Nat) (found : List UInt8) :
      ByteArray.toList.loop octets i found = found.reverse ++ octets.data.toList.drop i := by
    fun_induction ByteArray.toList.loop octets i found with
    | case1 i found lt ih =>
      have bound : i < octets.data.toList.length := by simpa using lt
      rw [ih, List.drop_eq_getElem_cons bound]
      simp [ByteArray.get!, lt]
    | case2 i found ge =>
      have past : octets.data.toList.length ≤ i := by simpa using ge
      rw [List.drop_eq_nil_of_le past, List.append_nil]
  rw [ByteArray.toList, loop]
  rfl

theorem encodeUtf8_eq (s : String) : encodeUtf8 s = encodeChars s.toList := by
  have encoded : s.toUTF8 = s.toList.utf8Encode := by
    rw [← String.toByteArray_ofList, String.ofList_toList]
    rfl
  rw [encodeUtf8, encoded, toList_eq_data, List.utf8Encode, List.data_toByteArray, encodeChars]

/-! ## Characters of one octet -/

def IsAscii (c : Char) : Prop := c.toNat < 128

theorem encodeChars_of_isAscii {cs : List Char} (ascii : ∀ c ∈ cs, IsAscii c) :
    encodeChars cs = cs.map fun c => UInt8.ofNat c.toNat := by
  induction cs with
  | nil => rfl
  | cons c cs ih =>
    obtain ⟨first, others⟩ := List.forall_mem_cons.1 ascii
    have one : String.utf8EncodeChar c = [UInt8.ofNat c.toNat] := by
      have small : c.val.toNat ≤ 127 := Nat.le_of_lt_succ first
      simp only [String.utf8EncodeChar, if_pos small]
      rfl
    rw [encodeChars, List.flatMap_cons, one, ← encodeChars, ih others, List.map_cons,
      List.singleton_append]

/-- Texts of ASCII characters stand in the order of their octets. -/
theorem encodeChars_lt_encodeChars {cs later : List Char} (h : cs < later)
    (ascii : ∀ c ∈ cs, IsAscii c) (ascii' : ∀ c ∈ later, IsAscii c) :
    encodeChars cs < encodeChars later := by
  -- Every such character is found again from its octet, and a larger octet has a later character.
  have back {l : List Char} (ascii : ∀ c ∈ l, IsAscii c) :
      (encodeChars l).map (fun b => Char.ofNat b.toNat) = l := by
    have same : ∀ c ∈ l, Char.ofNat (UInt8.ofNat c.toNat).toNat = c := by
      intro c member
      have small : c.toNat < 128 := ascii c member
      rw [UInt8.toNat_ofNat', Nat.mod_eq_of_lt (by omega), Char.ofNat_toNat]
    rw [encodeChars_of_isAscii ascii, List.map_map]
    exact (List.map_congr_left same).trans (List.map_id' l)
  have strict (a b : UInt8) (less : a < b) : Char.ofNat a.toNat < Char.ofNat b.toNat := by
    have value (b : UInt8) : (Char.ofNat b.toNat).toNat = b.toNat := by
      have valid : b.toNat.isValidChar := .inl (Nat.lt_trans b.toNat_lt (by decide))
      rw [Char.ofNat, dif_pos valid]
      rfl
    show (Char.ofNat a.toNat).toNat < (Char.ofNat b.toNat).toNat
    rw [value, value]
    exact less
  -- So octets that did not come first would make the characters come later.
  refine List.not_le.1 fun le => absurd h (List.not_lt.2 ?_)
  rw [← back ascii, ← back ascii']
  exact List.map_le strict le

/-! ## Reading what was written -/

theorem mapM_id_eq_some_iff {α : Type} {found : List (Option α)} {all : List α} :
    found.mapM id = some all ↔ found = all.map some := by
  induction found generalizing all with
  | nil => cases all <;> simp
  | cons first rest ih =>
    rw [List.mapM_cons]
    cases first with
    | none => cases all <;> simp
    | some a =>
      simp only [id_eq, Option.bind_eq_bind, Option.bind_some, Option.bind_eq_some_iff,
        Option.pure_def, Option.some.injEq, ih]
      cases all with
      | nil => simp
      | cons b as =>
        constructor
        · rintro ⟨as', rfl, same⟩
          cases same
          rfl
        · intro same
          cases same
          exact ⟨as, rfl, rfl⟩

/-- Octets are read strictly as a text exactly if they are the octets of the text: `decodeUtf8`
undoes `encodeUtf8` and accepts nothing else. -/
theorem decodeUtf8_eq_some_iff {octets : List UInt8} {s : String} :
    decodeUtf8 octets = some s ↔ octets = encodeUtf8 s := by
  rw [encodeUtf8_eq, decodeUtf8, Option.map_eq_some_iff]
  constructor
  · rintro ⟨cs, all, rfl⟩
    rw [String.toList_ofList]
    exact eq_encodeChars (mapM_id_eq_some_iff.1 all)
  · rintro rfl
    exact ⟨s.toList, mapM_id_eq_some_iff.2 (decodeRuns_encodeChars _), String.ofList_toList⟩

end Vigil.Text
