import Mathlib.Data.Nat.Init
import Vigil.Proofs.Calendar
import Vigil.Proofs.Summary
import Vigil.Proofs.Utf8

/-!
# The suffixes of runs

The files of a run carry the date and the time of its start as a suffix. Written with four digits of
the year, the suffixes of two runs are the same exactly if the runs started in the same second, and
sorting files by name sorts them by time. Every suffix, also that of a year with a sign or of a leap
second, is fit for the name of a file, so neither the report nor the summary of the cluster is
refused for its name.

The proof reads the eight digits of a date, and the six digits of a time, as one number. A later
second has a larger number, and of two numbers with the same number of digits the smaller one comes
first.

The module introduces:

* `Date.digits` and `clockDigits`, the numbers that a date and a time of the day spell;
* `Reading.suffix`, and `Reading.Ordinary`, the readings of the years 0 to 9999 and no leap second;
* `Reading.OrdersRuns` and `Reading.NamesFiles`, what is certain of suffixes.
-/

namespace Vigil

theorem Path.isPlain_of_long {name : String} (long : 2 < name.length) (slash : '/' ∉ name.toList)
    (backslash : '\\' ∉ name.toList) : IsPlain name where
  nonempty := by
    rintro rfl
    exact absurd long (by decide)
  noDot := by
    rintro rfl
    exact absurd long (by decide)
  noTwoDots := by
    rintro rfl
    exact absurd long (by decide)
  noSlash := slash
  noBackslash := backslash

namespace Calendar

/-! ## Numbers with a fixed number of digits -/

theorem append_lt_append {α : Type} [LT α] {front front' : List α} (h : front < front')
    (same : front.length = front'.length) (back back' : List α) :
    front ++ back < front' ++ back' := by
  induction front generalizing front' with
  | nil =>
    obtain rfl := List.eq_nil_of_length_eq_zero same.symm
    exact absurd h (List.not_lt_nil _)
  | cons a rest ih =>
    cases front' with
    | nil => cases same
    | cons a' rest' =>
      rw [List.cons_append, List.cons_append, List.cons_lt_cons_iff]
      rcases List.cons_lt_cons_iff.1 h with first | ⟨rfl, behind⟩
      · exact .inl first
      · exact .inr ⟨rfl, ih behind (Nat.succ.inj same)⟩

namespace Reading

section
variable {width n : Nat}

theorem padded_one (small : n < 10) : padded 1 n = [n.digitChar] := by
  simp [padded, Nat.toDigits_of_lt_base small]

theorem padded_succ (pos : 0 < width) (n : Nat) :
    padded (width + 1) n = padded width (n / 10) ++ [(n % 10).digitChar] := by
  unfold padded
  dsimp only
  rw [Nat.toDigits_eq_if (n := n) (by decide)]
  split
  · next small =>
    -- Before a single digit comes zero, which has a digit of its own in place of padding.
    obtain ⟨more, rfl⟩ := Nat.exists_eq_add_one_of_ne_zero (Nat.ne_of_gt pos)
    rw [Nat.div_eq_of_lt small, Nat.toDigits_zero, Nat.mod_eq_of_lt small]
    simp [← List.replicate_succ']
  · next large =>
    rw [List.length_append, List.length_singleton, Nat.add_sub_add_right, List.append_assoc]

/-- A number after another one is read as one number, if the second one has all its digits. So a
date and a time of day can be compared as two numbers. -/
theorem padded_append {back m : Nat} (pos : 0 < width) (posBack : 0 < back) (n : Nat)
    (fits : m < 10 ^ back) :
    padded width n ++ padded back m = padded (width + back) (n * 10 ^ back + m) := by
  -- By induction on the digits behind, the last of which is the last of the whole number.
  induction back, posBack using Nat.le_induction generalizing m with
  | base =>
    have last : (n * 10 ^ 1 + m) / 10 = n ∧ (n * 10 ^ 1 + m) % 10 = m := by omega
    rw [padded_one fits, padded_succ pos, last.1, last.2]
  | succ back posBack ih =>
    rw [Nat.pow_succ] at fits
    have last : (n * 10 ^ (back + 1) + m) / 10 = n * 10 ^ back + m / 10 ∧
        (n * 10 ^ (back + 1) + m) % 10 = m % 10 := by
      rw [Nat.pow_succ, ← Nat.mul_assoc]
      omega
    rw [padded_succ posBack, ← List.append_assoc, ih (by omega), ← Nat.add_assoc,
      padded_succ (by omega), last.1, last.2]

theorem length_padded (pos : 0 < width) (fits : n < 10 ^ width) :
    (padded width n).length = width := by
  have short := (Nat.length_toDigits_le_iff (by decide) pos).2 fits
  simp only [padded, List.length_append, List.length_replicate]
  omega

theorem digitChar_lt_digitChar : ∀ larger < 10, ∀ digit < larger,
    digit.digitChar < larger.digitChar := by
  decide

/-- Of two numbers with the same number of digits the smaller one comes first, by induction on their
digits. -/
theorem padded_lt_padded {larger : Nat} (pos : 0 < width) (h : n < larger)
    (fits : larger < 10 ^ width) : padded width n < padded width larger := by
  induction width, pos using Nat.le_induction generalizing n larger with
  | base =>
    rw [padded_one (Nat.lt_trans h fits), padded_one fits, List.cons_lt_cons_iff]
    exact .inl (digitChar_lt_digitChar larger fits n h)
  | succ width pos ih =>
    rw [Nat.pow_succ] at fits
    rw [padded_succ pos, padded_succ pos]
    -- The numbers differ before their last digits, or in these alone.
    rcases Nat.lt_or_eq_of_le (Nat.div_le_div_right (c := 10) (Nat.le_of_lt h)) with front | front
    · refine append_lt_append (ih front (by omega)) ?_ _ _
      rw [length_padded pos (by omega), length_padded pos (by omega)]
    · rw [front]
      refine List.append_left_lt (List.cons_lt_cons_iff.2 (.inl ?_))
      exact digitChar_lt_digitChar _ (Nat.mod_lt _ (by decide)) _ (by omega)

theorem isDigit_of_mem_padded {c : Char} (h : c ∈ padded width n) : c.isDigit = true := by
  rcases List.mem_append.1 h with padding | digit
  · rw [List.eq_of_mem_replicate padding]
    rfl
  · exact Nat.isDigit_of_mem_toDigits (by decide) (by decide) digit

end
end Reading

/-! ## Dates and times as numbers -/

/-- The number that the digits of the date `d` spell, year first. -/
def Date.digits (d : Date) : Nat := d.year.toNat * 10000 + d.month * 100 + d.day

/-- The number that the digits of a time spell, `second` seconds after the start of a day. -/
def clockDigits (second : Nat) : Nat :=
  second / 3600 * 10000 + second / 60 % 60 * 100 + second % 60

theorem Date.digits_lt_digits {d later : Date} (h : d.Before later) (proper : d.Proper)
    (proper' : later.Proper) (positive : 0 ≤ d.year) : d.digits < later.digits := by
  -- What comes behind the year, or behind the month, is too small to make up for it.
  obtain ⟨month, day⟩ := proper
  obtain ⟨month', day'⟩ := proper'
  unfold Before at h
  unfold digits
  omega

theorem clockDigits_lt_clockDigits {second later : Nat} (h : second < later) :
    clockDigits second < clockDigits later := by
  have hours : second / 3600 = second / 60 / 60 ∧ later / 3600 = later / 60 / 60 := by omega
  unfold clockDigits
  rw [hours.1, hours.2]
  -- Either a later minute has come, or only the seconds differ.
  rcases Nat.lt_or_eq_of_le (Nat.div_le_div_right (c := 60) (Nat.le_of_lt h)) with minute | minute
    <;> omega

namespace Reading

/-! ## Suffixes in the order of time -/

def year (r : Reading) : Int := (dateOf (r.secs / 86400)).year

/-- The suffix of the reading `r`, whether or not it has a date. -/
def suffix (r : Reading) : String := String.ofList r.suffixChars

/-- The reading lies in the years 0 to 9999 and in no leap second: the readings whose suffixes have
one length. -/
structure Ordinary (r : Reading) : Prop where
  noLeap : r.nanos < 1000000000
  fourDigits : 0 ≤ r.year ∧ r.year ≤ 9999

section
variable {r r' : Reading}

theorem suffix?_of_isValid (valid : r.isValid = true) : r.suffix? = some r.suffix := if_pos valid

/-- Which seconds lie in these years: those from the start of the year 0 to the end of 9999. -/
theorem ordinary_iff (r : Reading) : r.Ordinary ↔
    r.nanos < 1000000000 ∧ -62167219200 ≤ r.secs ∧ r.secs < 253402300800 := by
  have year : r.year = yearOf (r.secs / 86400 + epochDay) := rfl
  have years : (0 ≤ r.year ∧ r.year ≤ 9999) ↔
      -62167219200 ≤ r.secs ∧ r.secs < 253402300800 := by
    obtain ⟨begun, going⟩ := day_in_year (r.secs / 86400 + epochDay)
    rw [year]
    unfold daysBeforeYear epochDay at *
    omega
  rw [← years]
  exact ⟨fun h => ⟨h.noLeap, h.fourDigits⟩, fun h => ⟨h.1, h.2⟩⟩

theorem Ordinary.isValid (h : r.Ordinary) : r.isValid = true := by
  obtain ⟨noLeap, first, last⟩ := h
  unfold year at first last
  simp only [Reading.isValid, Bool.and_eq_true, Bool.or_eq_true, decide_eq_true_eq]
  omega

/-- The suffix of an ordinary reading consists of two numbers and two signs. -/
theorem Ordinary.suffixChars_eq (h : r.Ordinary) : r.suffixChars =
    '_' :: (padded 8 (dateOf (r.secs / 86400)).digits ++
      '-' :: padded 6 (clockDigits (r.secs % 86400).toNat)) := by
  obtain ⟨noLeap, fourDigits⟩ := h
  obtain ⟨month, day⟩ := proper_dateOf (r.secs / 86400)
  -- Padded numbers stand beside each other as the digits of one number.
  have date : padded 4 r.year.toNat ++ padded 2 (dateOf (r.secs / 86400)).month ++
      padded 2 (dateOf (r.secs / 86400)).day = padded 8 (dateOf (r.secs / 86400)).digits := by
    rw [padded_append (by decide) (by decide) _ (by omega),
      padded_append (by decide) (by decide) _ (by omega)]
    unfold Date.digits year
    exact congrArg (padded 8) (by omega)
  have time (second : Nat) : padded 2 (second / 3600) ++ padded 2 (second / 60 % 60) ++
      padded 2 (second % 60) = padded 6 (clockDigits second) := by
    rw [padded_append (by decide) (by decide) _ (by omega),
      padded_append (by decide) (by decide) _ (by omega)]
    unfold clockDigits
    exact congrArg (padded 6) (by omega)
  rw [← date, ← time]
  unfold year at fourDigits ⊢
  simp [suffixChars, yearText, fourDigits, Nat.not_le.2 noLeap]

theorem Ordinary.digits_lt (h : r.Ordinary) : (dateOf (r.secs / 86400)).digits < 10 ^ 8 := by
  obtain ⟨-, first, last⟩ := h
  obtain ⟨month, day⟩ := proper_dateOf (r.secs / 86400)
  unfold year at first last
  unfold Date.digits
  omega

theorem clockDigits_lt (r : Reading) : clockDigits (r.secs % 86400).toNat < 10 ^ 6 := by
  unfold clockDigits
  omega

theorem Ordinary.length_suffixChars (h : r.Ordinary) : r.suffixChars.length = 16 := by
  rw [h.suffixChars_eq, List.length_cons, List.length_append, List.length_cons,
    length_padded (by decide) h.digits_lt, length_padded (by decide) r.clockDigits_lt]

theorem Ordinary.suffix_congr (h : r.Ordinary) (h' : r'.Ordinary) (second : r.secs = r'.secs) :
    r.suffix = r'.suffix := by
  rw [suffix, suffix, h.suffixChars_eq, h'.suffixChars_eq, second]

/-- A later second has a later suffix, character by character, by the order of dates. -/
theorem Ordinary.suffixChars_lt (h : r.Ordinary) (h' : r'.Ordinary) (later : r.secs < r'.secs) :
    r.suffixChars < r'.suffixChars := by
  rw [h.suffixChars_eq, h'.suffixChars_eq, List.cons_lt_cons_iff]
  refine .inr ⟨rfl, ?_⟩
  have days : r.secs / 86400 ≤ r'.secs / 86400 := by omega
  rcases Int.lt_or_eq_of_le days with day | day
  · -- On a later day the number of the date is larger.
    have date := Date.digits_lt_digits (before_dateOf day) (proper_dateOf _) (proper_dateOf _)
      h.fourDigits.1
    refine append_lt_append (padded_lt_padded (by decide) date h'.digits_lt) ?_ _ _
    rw [length_padded (by decide) h.digits_lt, length_padded (by decide) h'.digits_lt]
  · -- On the same day the number of the time is.
    have second : (r.secs % 86400).toNat < (r'.secs % 86400).toNat := by omega
    rw [day]
    refine List.append_left_lt (List.cons_lt_cons_iff.2 (.inr ⟨rfl, ?_⟩))
    exact padded_lt_padded (by decide) (clockDigits_lt_clockDigits second) r'.clockDigits_lt

/-! ## Suffixes as parts of names -/

/-- The characters of suffixes: digits and three signs, none of which a sink refuses. -/
def IsSign (c : Char) : Prop := c.isDigit = true ∨ c ∈ ['_', '-', '+']

theorem isSign_of_mem_yearText {c : Char} {n : Int} (h : c ∈ yearText n) : IsSign c := by
  unfold yearText at h
  split at h
  · exact .inl (isDigit_of_mem_padded h)
  · split at h <;> rcases List.mem_cons.1 h with rfl | digit
    · exact .inr (by decide)
    · exact .inl (isDigit_of_mem_padded digit)
    · exact .inr (by decide)
    · exact .inl (isDigit_of_mem_padded digit)

theorem isSign_of_mem_suffix (r : Reading) : ∀ c ∈ r.suffix.toList, IsSign c := by
  intro c member
  have digits {width n : Nat} (h : c ∈ padded width n) : IsSign c :=
    .inl (isDigit_of_mem_padded h)
  rw [suffix, String.toList_ofList] at member
  simp only [suffixChars, List.mem_append, List.mem_cons] at member
  rcases member with (((((rfl | year) | month) | day) | rfl | hour) | minute) | second
  · exact .inr (by decide)
  · exact isSign_of_mem_yearText year
  · exact digits month
  · exact digits day
  · exact .inr (by decide)
  · exact digits hour
  · exact digits minute
  · exact digits second

theorem isAscii_of_isSign {c : Char} (h : IsSign c) : Text.IsAscii c := by
  rcases h with digit | sign
  · have last := (Char.isDigit_iff_toNat.1 digit).2
    exact Nat.lt_of_le_of_lt last (by decide)
  · simp only [List.mem_cons, List.not_mem_nil, or_false] at sign
    unfold Text.IsAscii
    rcases sign with rfl | rfl | rfl <;> decide

theorem isPlain_around (r : Reading) {front back : String} (long : 2 < front.length)
    (slash : '/' ∉ front.toList ++ back.toList) (backslash : '\\' ∉ front.toList ++ back.toList) :
    Path.IsPlain (front ++ r.suffix ++ back) := by
  have apart {c : Char} (none : c ∉ front.toList ++ back.toList) (noSign : ¬IsSign c) :
      c ∉ (front ++ r.suffix ++ back).toList := by
    intro member
    rw [String.toList_append, String.toList_append, List.mem_append, List.mem_append] at member
    rcases member with (before | inside) | after
    · exact none (List.mem_append_left _ before)
    · exact noSign (r.isSign_of_mem_suffix c inside)
    · exact none (List.mem_append_right _ after)
  have separators : ¬IsSign '/' ∧ ¬IsSign '\\' := by
    unfold IsSign
    decide
  refine Path.isPlain_of_long ?_ (apart slash separators.1) (apart backslash separators.2)
  rw [String.length_append, String.length_append]
  omega

theorem exists_reportPaths (r : Reading) (s : Sink) :
    ∃ paths, s.reportPaths r.suffix = .ok paths := by
  have file {front : String} (plain : Path.IsPlain (front ++ r.suffix ++ ".json")) :
      ∃ path, s.filePath (front ++ r.suffix ++ ".json") = .ok path := by
    rw [← Sink.slotPath_file]
    exact Sink.exists_slotPath_iff.2 (List.forall_mem_singleton.2 plain)
  have intervals : Path.IsPlain ("e2e-intervals" ++ r.suffix ++ ".json") :=
    r.isPlain_around (by decide) (by decide) (by decide)
  have results : Path.IsPlain ("observer-results" ++ r.suffix ++ ".json") :=
    r.isPlain_around (by decide) (by decide) (by decide)
  obtain ⟨path, first⟩ := file intervals
  obtain ⟨path', second⟩ := file results
  exact ⟨⟨path, path'⟩, by simp [Sink.reportPaths, first, second, bind, Except.bind]⟩

theorem exists_artifactPath (r : Reading) (s : Sink) :
    ∃ path, s.artifactPath clusterInfoName (ClusterInfo.summaryName r.suffix) = .ok path := by
  have observer : Path.IsPlain clusterInfoName :=
    Path.isPlain_of_long (by decide) (by decide) (by decide)
  have file : Path.IsPlain (ClusterInfo.summaryName r.suffix) :=
    r.isPlain_around (by decide) (by decide) (by decide)
  rw [← Sink.slotPath_artifact]
  exact Sink.exists_slotPath_iff.2
    (List.forall_mem_cons.2 ⟨observer, List.forall_mem_singleton.2 file⟩)

theorem ne_invalidName_of_writeValue {files : FileTree} {path : String}
    {value : Option Json.Value} {e : Error} (refused : (writeValue files path value).1 = .error e)
    (name reason : String) : e ≠ .invalidName name reason := by
  unfold writeValue writeOctets at refused
  split at refused
  · cases refused
    exact nofun
  · split at refused
    · cases refused
    · cases refused
      exact nofun

theorem write_ne_invalidName (r : Reading) (report : Report) (files : FileTree) (s : Sink)
    (name reason : String) :
    (report.write files s r.suffix).1 ≠ .error (.invalidName name reason) := by
  obtain ⟨paths, named⟩ := r.exists_reportPaths s
  intro refused
  unfold Report.write at refused
  rw [named] at refused
  dsimp only at refused
  -- Each of the two files may be refused, but for another reason.
  split at refused
  · next intervals =>
    exact ne_invalidName_of_writeValue (congrArg Prod.fst intervals) name reason
      (Except.error.inj refused)
  · split at refused
    · next results =>
      exact ne_invalidName_of_writeValue (congrArg Prod.fst results) name reason
        (Except.error.inj refused)
    · cases refused

theorem store_ne_invalidName (r : Reading) (c : ClusterInfo) (files : FileTree) (dir : String)
    (final : Timeline) (resources : Resources) (name reason : String) :
    (c.store files dir r.suffix final resources).1 ≠ .error (.invalidName name reason) := by
  obtain ⟨path, named⟩ := r.exists_artifactPath ⟨dir⟩
  unfold ClusterInfo.summaryName at named
  intro refused
  unfold ClusterInfo.store at refused
  split at refused
  · cases refused
  · rw [named] at refused
    exact ne_invalidName_of_writeValue refused name reason rfl

end

/-! ## What is certain of suffixes -/

/-- What is certain of the suffix of any reading `r`: it can be part of a name. -/
structure NamesFiles (r : Reading) : Prop where
  /-- A reading that has a date has a suffix. -/
  given : r.isValid = true → r.suffix? = some r.suffix
  signs : ∀ c ∈ r.suffix.toList, c.isDigit = true ∨ c ∈ ['_', '-', '+']
  reportPaths : ∀ s : Sink, ∃ paths, s.reportPaths r.suffix = .ok paths
  artifactPath : ∀ s : Sink,
    ∃ path, s.artifactPath clusterInfoName (ClusterInfo.summaryName r.suffix) = .ok path
  /-- No report is refused for the names of its files. -/
  report : ∀ (report : Report) (files : FileTree) (s : Sink) (name reason : String),
    (report.write files s r.suffix).1 ≠ .error (.invalidName name reason)
  /-- No summary of the cluster is refused for the name of its file. -/
  summary : ∀ (c : ClusterInfo) (files : FileTree) (dir : String) (final : Timeline)
    (resources : Resources) (name reason : String),
    (c.store files dir r.suffix final resources).1 ≠ .error (.invalidName name reason)

/-- What is certain of the suffixes of two readings `r` and `r'` that are `Ordinary`. -/
structure OrdersRuns (r r' : Reading) : Prop where
  given : r.suffix? = some r.suffix ∧ r'.suffix? = some r'.suffix
  length : (Text.encodeUtf8 r.suffix).length = 16 ∧ (Text.encodeUtf8 r'.suffix).length = 16
  /-- They are the same in the same second only. -/
  same_iff : r.suffix = r'.suffix ↔ r.secs = r'.secs
  /-- Octet by octet, the suffix of the earlier second comes first. -/
  lt_iff : Text.encodeUtf8 r.suffix < Text.encodeUtf8 r'.suffix ↔ r.secs < r'.secs

section
variable {r r' : Reading}

theorem isAscii_suffixChars (r : Reading) : ∀ c ∈ r.suffixChars, Text.IsAscii c := by
  intro c member
  refine isAscii_of_isSign (r.isSign_of_mem_suffix c ?_)
  rwa [suffix, String.toList_ofList]

theorem encodeUtf8_suffix (r : Reading) :
    Text.encodeUtf8 r.suffix = Text.encodeChars r.suffixChars := by
  rw [Text.encodeUtf8_eq, suffix, String.toList_ofList]

theorem Ordinary.length_octets (h : r.Ordinary) : (Text.encodeUtf8 r.suffix).length = 16 := by
  rw [encodeUtf8_suffix, Text.encodeChars_of_isAscii r.isAscii_suffixChars, List.length_map,
    h.length_suffixChars]

theorem Ordinary.octets_lt (h : r.Ordinary) (h' : r'.Ordinary) (later : r.secs < r'.secs) :
    Text.encodeUtf8 r.suffix < Text.encodeUtf8 r'.suffix := by
  rw [encodeUtf8_suffix, encodeUtf8_suffix]
  exact Text.encodeChars_lt_encodeChars (h.suffixChars_lt h' later) r.isAscii_suffixChars
    r'.isAscii_suffixChars

theorem Ordinary.suffix_ne (h : r.Ordinary) (h' : r'.Ordinary) (later : r.secs < r'.secs) :
    r.suffix ≠ r'.suffix := by
  intro same
  have less := h.octets_lt h' later
  rw [same] at less
  exact List.lt_irrefl _ less

/-- Since the octets are in the order of the seconds, they tell the seconds apart. -/
theorem Ordinary.ordersRuns (h : r.Ordinary) (h' : r'.Ordinary) : OrdersRuns r r' where
  given := ⟨suffix?_of_isValid h.isValid, suffix?_of_isValid h'.isValid⟩
  length := ⟨h.length_octets, h'.length_octets⟩
  same_iff := by
    refine ⟨fun same => ?_, h.suffix_congr h'⟩
    rcases Int.lt_trichotomy r.secs r'.secs with earlier | second | later
    · exact absurd same (h.suffix_ne h' earlier)
    · exact second
    · exact absurd same.symm (h'.suffix_ne h later)
  lt_iff := by
    refine ⟨fun less => ?_, h.octets_lt h'⟩
    rcases Int.lt_trichotomy r.secs r'.secs with earlier | second | later
    · exact earlier
    · rw [h.suffix_congr h' second] at less
      exact absurd less (List.lt_irrefl _)
    · exact absurd (h'.octets_lt h later) (List.lt_asymm less)

end

/-- Suffixes are fit for the names of files (`NamesFiles`), and with four digits of the year they
stand in the order of the seconds in which the runs start (`OrdersRuns`). -/
theorem suffixes_order_runs :
    (∀ r : Reading, r.NamesFiles) ∧
      (∀ r : Reading, r.Ordinary ↔
        r.nanos < 1000000000 ∧ -62167219200 ≤ r.secs ∧ r.secs < 253402300800) ∧
      ∀ r r' : Reading, r.Ordinary → r'.Ordinary → OrdersRuns r r' := by
  refine ⟨fun r => ?_, ordinary_iff, fun _ _ one other => one.ordersRuns other⟩
  exact
    { given := suffix?_of_isValid
      signs := r.isSign_of_mem_suffix
      reportPaths := r.exists_reportPaths
      artifactPath := r.exists_artifactPath
      report := r.write_ne_invalidName
      summary := r.store_ne_invalidName }

/-- The last second of February 1900, which had no leap day, and the second after it. -/
theorem suffixes_order_runs_of_march :
    let r : Reading := ⟨-2203891201, 999999999⟩
    let r' : Reading := ⟨-2203891200, 0⟩
    r.Ordinary ∧ r'.Ordinary ∧ OrdersRuns r r' ∧
      r.suffix = "_19000228-235959" ∧ r'.suffix = "_19000301-000000" := by
  intro r r'
  have ordinary : r.Ordinary := ⟨by decide, by decide +kernel⟩
  have ordinary' : r'.Ordinary := ⟨by decide, by decide +kernel⟩
  exact ⟨ordinary, ordinary', suffixes_order_runs.2.2 r r' ordinary ordinary',
    by decide +kernel, by decide +kernel⟩

end Reading
end Calendar
end Vigil
