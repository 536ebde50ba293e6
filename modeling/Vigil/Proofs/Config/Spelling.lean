import Mathlib.Data.List.Forall2
import Mathlib.Data.List.Induction
import Mathlib.Data.Nat.Digits.Defs
import Vigil.Config.Overrides

/-!
# How values are spelt

What a text has to look like to spell a number, a truth value or a list, said without the functions
that read it. Each of them reads exactly the texts that spell a value, and reads that value.

The module introduces:

* `Text.SpellsWord`, for numbers of 64 bits;
* `Text.SpellsTruth`, for truth values;
* `Text.SpellsList`, for texts between commas, and `Text.Trims`, what is left of each of them.
-/

namespace Vigil.Text

/-- The number that decimal `digits` stand for, the last of which counts once. -/
def decimal (digits : List Char) : Nat :=
  Nat.ofDigits 10 (digits.reverse.map fun c => c.toNat - '0'.toNat)

/-- The text `s` spells the number `n` of 64 bits in decimal digits, perhaps with a plus sign before
them. -/
structure SpellsWord (s : String) (n : Nat) : Prop where
  digits : ∃ digits : List Char, digits ≠ [] ∧ (∀ c ∈ digits, c.isDigit = true) ∧
    (s.toList = digits ∨ s.toList = '+' :: digits) ∧ decimal digits = n
  lt : n < 2 ^ 64

def SpellsTruth (s : String) (b : Bool) : Prop := s = if b then "true" else "false"

/-- The characters `cs` without the blanks around them are `trimmed`. -/
def Trims (cs trimmed : List Char) : Prop :=
  ∃ front back, cs = front ++ trimmed ++ back ∧ (∀ c ∈ front ++ back, isBlank c = true) ∧
    (∀ c ∈ trimmed.head?, isBlank c = false) ∧ ∀ c ∈ trimmed.getLast?, isBlank c = false

/-- The text `s` spells a list: what stands between its commas, without the blanks around it, unless
nothing is left. -/
def SpellsList (s : String) (list : List String) : Prop :=
  ∃ pieces trimmed : List (List Char),
    [','].intercalate pieces = s.toList ∧ pieces ≠ [] ∧ (∀ piece ∈ pieces, ',' ∉ piece) ∧
    List.Forall₂ Trims pieces trimmed ∧
    list = (trimmed.filter (· ≠ [])).map String.ofList

/-! ## Numbers -/

/-- Reading digits from the left gives the number that `decimal` says, by induction from the
right. -/
theorem foldl_digits (digits : List Char) :
    digits.foldl (fun n c => n * 10 + (c.toNat - 48)) 0 = decimal digits := by
  induction digits using List.reverseRecOn with
  | nil => rfl
  | append_singleton digits c ih =>
    rw [List.foldl_append, ih]
    simp only [List.foldl_cons, List.foldl_nil, decimal, List.reverse_append,
      List.reverse_singleton, List.singleton_append, List.map_cons, Nat.ofDigits_cons]
    have zero : '0'.toNat = 48 := rfl
    omega

def unsigned : List Char → List Char
  | '+' :: rest => rest
  | cs => cs

theorem word?_eq (s : String) :
    word? s =
      if (unsigned s.toList).isEmpty ∨ !(unsigned s.toList).all Char.isDigit then none
      else if decimal (unsigned s.toList) < 2 ^ 64 then some (decimal (unsigned s.toList))
      else none := by
  simp only [← foldl_digits]
  rfl

theorem unsigned_digits {cs digits : List Char} (all : ∀ c ∈ digits, c.isDigit = true)
    (spelt : cs = digits ∨ cs = '+' :: digits) : unsigned cs = digits := by
  rcases spelt with rfl | rfl
  · unfold unsigned
    split
    · exact absurd (all '+' List.mem_cons_self) (by decide)
    · rfl
  · rfl

theorem eq_unsigned (cs : List Char) : cs = unsigned cs ∨ cs = '+' :: unsigned cs := by
  unfold unsigned
  split
  · exact .inr rfl
  · exact .inl rfl

/-- A word is read exactly from the texts that spell it: `word?` decides `SpellsWord`. -/
theorem word?_eq_some_iff {s : String} {n : Nat} : word? s = some n ↔ SpellsWord s n := by
  rw [word?_eq]
  constructor
  · intro read
    split at read
    · cases read
    · next known =>
      have some : unsigned s.toList ≠ [] := by
        intro none
        exact known (.inl (by rw [none]; rfl))
      have all : ∀ c ∈ unsigned s.toList, c.isDigit = true := by
        simpa using fun h => known (.inr h)
      split at read
      · next lt =>
        cases read
        exact ⟨⟨_, some, all, eq_unsigned _, rfl⟩, lt⟩
      · cases read
  · rintro ⟨⟨digits, some, all, spelt, rfl⟩, lt⟩
    rw [unsigned_digits all spelt]
    have known : ¬(digits.isEmpty = true ∨ (!digits.all Char.isDigit) = true) := by
      simpa [some] using all
    rw [if_neg known, if_pos lt]

/-! ## Truth values -/

theorem truth?_eq_some_iff {s : String} {b : Bool} : truth? s = some b ↔ SpellsTruth s b := by
  unfold truth? SpellsTruth
  split
  · next yes => cases b <;> simp [yes]
  · next notYes =>
    split
    · next no => cases b <;> simp [no]
    · next notNo => cases b <;> simp [notYes, notNo]

/-! ## Lists -/

theorem exists_dropWhile (cs : List Char) :
    ∃ front, cs = front ++ cs.dropWhile isBlank ∧ (∀ c ∈ front, isBlank c = true) ∧
      ∀ c ∈ (cs.dropWhile isBlank).head?, isBlank c = false := by
  refine ⟨cs.takeWhile isBlank, List.takeWhile_append_dropWhile.symm, ?_, ?_⟩
  · intro c hc
    exact List.all_eq_true.1 List.all_takeWhile c hc
  · intro c hc
    have first := List.head?_dropWhile_not isBlank cs
    rw [Option.mem_def.1 hc] at first
    exact first

theorem trims_trimChars (cs : List Char) : Trims cs (trimChars cs) := by
  obtain ⟨front, cut, blanks, first⟩ := exists_dropWhile cs
  obtain ⟨back, cut', blanks', last⟩ := exists_dropWhile (cs.dropWhile isBlank).reverse
  have parts : cs.dropWhile isBlank = trimChars cs ++ back.reverse := by
    rw [trimChars, ← List.reverse_append, ← cut', List.reverse_reverse]
  refine ⟨front, back.reverse, ?_, ?_, ?_, ?_⟩
  · rw [List.append_assoc, ← parts, ← cut]
  · intro c hc
    rcases List.mem_append.1 hc with h | h
    · exact blanks c h
    · exact blanks' c (List.mem_reverse.1 h)
  · intro c hc
    rw [parts, List.head?_append, Option.mem_def.1 hc] at first
    exact first c rfl
  · intro c hc
    rw [trimChars, List.getLast?_reverse] at hc
    exact last c hc

/-- What is left when the blanks around a list are taken off is certain, so `Trims` is a
function. -/
theorem Trims.eq_trimChars {cs trimmed : List Char} (h : Trims cs trimmed) :
    trimmed = trimChars cs := by
  obtain ⟨front, back, rfl, blank, first, last⟩ := h
  have frontBlank : ∀ c ∈ front, isBlank c = true := fun c hc => blank c (List.mem_append_left _ hc)
  have backBlank : ∀ c ∈ back.reverse, isBlank c = true := fun c hc =>
    blank c (List.mem_append_right _ (List.mem_reverse.1 hc))
  -- Dropping stops at the first character that is not blank.
  have stops {cs : List Char} (head : ∀ c ∈ cs.head?, isBlank c = false) :
      cs.dropWhile isBlank = cs := by
    cases cs with
    | nil => rfl
    | cons c rest => exact List.dropWhile_cons_of_neg (by simp [head c rfl])
  cases htrimmed : trimmed with
  | nil =>
    subst htrimmed
    rw [eq_comm, trimChars_eq_nil_iff, List.append_nil, List.all_eq_true]
    exact blank
  | cons c rest =>
    rw [← htrimmed]
    have ahead : ∀ c ∈ (trimmed ++ back).head?, isBlank c = false := by
      rw [htrimmed] at first ⊢
      exact first
    have behind : ∀ c ∈ trimmed.reverse.head?, isBlank c = false := by
      rw [List.head?_reverse]
      exact last
    rw [trimChars, List.append_assoc, List.dropWhile_append_of_pos frontBlank, stops ahead,
      List.reverse_append, List.dropWhile_append_of_pos backBlank, stops behind,
      List.reverse_reverse]

theorem notMem_of_mem_splitOn {a : Char} {cs piece : List Char} (there : piece ∈ cs.splitOn a) :
    a ∉ piece := by
  induction cs generalizing piece with
  | nil =>
    rw [List.splitOn_nil] at there
    rw [List.mem_singleton.1 there]
    exact List.not_mem_nil
  | cons c cs ih =>
    rw [List.splitOn, List.splitOnP_cons_eq_if_modifyHead] at there
    split at there
    · rcases List.mem_cons.1 there with rfl | rest
      · exact List.not_mem_nil
      · exact ih rest
    · next other =>
      -- The character is no comma and goes to the first of the other pieces.
      cases pieces : cs.splitOn a with
      | nil => exact absurd pieces (List.splitOn_ne_nil a cs)
      | cons first rest =>
        have cut : cs.splitOnP (fun x => x == a) = first :: rest := pieces
        rw [cut, List.modifyHead_cons] at there
        rcases List.mem_cons.1 there with rfl | later
        · rw [List.mem_cons, not_or]
          exact ⟨fun same => other (by simp [same]), ih (by simp [pieces])⟩
        · exact ih (by simp [pieces, later])

theorem forall₂_trims_iff {pieces trimmed : List (List Char)} :
    List.Forall₂ Trims pieces trimmed ↔ trimmed = pieces.map trimChars := by
  constructor
  · intro all
    induction all with
    | nil => rfl
    | cons first _ ih => rw [List.map_cons, first.eq_trimChars, ih]
  · rintro rfl
    rw [List.forall₂_map_right_iff, List.forall₂_same]
    exact fun piece _ => trims_trimChars piece

/-- The list of a text is the one that it spells: `commaList` decides `SpellsList`. -/
theorem spellsList_iff {s : String} {list : List String} :
    SpellsList s list ↔ commaList s = list := by
  have read : commaList s =
      (((s.toList.splitOn ',').map trimChars).filter (· ≠ [])).map String.ofList := by
    rw [commaList, List.filter_map, List.filter_map, List.map_map]
    congr 1
    refine List.filter_congr fun piece _ => ?_
    have empty : String.ofList (trimChars piece) = "" ↔ trimChars piece = [] :=
      String.ofList_eq_empty_iff
    by_cases none : trimChars piece = [] <;> simp [none, empty]
  constructor
  · rintro ⟨pieces, trimmed, joined, some, plain, trims, rfl⟩
    rw [read, ← joined, List.splitOn_intercalate ',' plain some, forall₂_trims_iff.1 trims]
  · rintro rfl
    exact ⟨s.toList.splitOn ',', _, List.intercalate_splitOn ',', List.splitOn_ne_nil ',' _,
      fun piece => notMem_of_mem_splitOn, forall₂_trims_iff.2 rfl, read⟩

end Vigil.Text
