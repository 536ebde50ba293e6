import Vigil.CommandLine
import Vigil.Proofs.Except
import Vigil.Proofs.Utf8

/-!
# What arguments give

An argument gives an option a value behind an equals sign, or the argument after it does, unless
that one is an option itself. Whenever arguments can be read, an option has exactly the value that
they give it, and no option has one that they do not give. Of the path of the configuration nothing
is said, which can be given by a letter as well.

The module introduces:

* `Gives`, when arguments give an option a value;
* `Sets` and `Unset`, when a command line holds that value, and when it holds none;
* `Reading`, the invariant of reading arguments one after the other.
-/

namespace Vigil

namespace CommandLine

def Valued.longName : Valued → String
  | config => "config"
  | logLevel => "log-level"
  | logFormat => "log-format"
  | storageDir => "storage-dir"
  | workloadSecs => "workload-secs"

/-- The option `o` as an argument: two dashes and its long name. -/
def Valued.argument (o : Valued) : List UInt8 := 45 :: 45 :: Text.encodeUtf8 o.longName

/-- The `argument` is no option itself, so it can be the value of one. -/
def IsValue (argument : List UInt8) : Prop := argument = [45] ∨ argument.head? ≠ some 45

/-- The `arguments` give the option `o` the `value`: behind its equals sign, or as the argument
after it. -/
def Gives (arguments : List (List UInt8)) (o : Valued) (value : List UInt8) : Prop :=
  o.argument ++ 61 :: value ∈ arguments ∨
    IsValue value ∧ ∃ before after, arguments = before ++ o.argument :: value :: after

/-- The command line `c` holds the `value` of the option `o`, in the field that is for it. -/
def Sets (o : Valued) (value : List UInt8) (c : CommandLine) : Prop :=
  match o with
  | .config => c.configPath = Text.decodeLenient value
  | .logLevel => ∃ s, Text.decodeUtf8 value = some s ∧ c.logLevel = some s
  | .logFormat => ∃ s, Text.decodeUtf8 value = some s ∧ c.logFormat = some s
  | .storageDir => c.storageDir = some (Text.decodeLenient value)
  | .workloadSecs => ∃ s n, Text.decodeUtf8 value = some s ∧ Text.word? s = some n ∧
      c.workloadSecs = some n

def Unset (o : Valued) (c : CommandLine) : Prop :=
  match o with
  | .config => c.configPath = ({} : CommandLine).configPath
  | .logLevel => c.logLevel = none
  | .logFormat => c.logFormat = none
  | .storageDir => c.storageDir = none
  | .workloadSecs => c.workloadSecs = none

/-! ## Options as arguments -/

theorem argument_eq (o : Valued) : o.argument = 45 :: 45 :: Text.encodeChars o.longName.toList := by
  rw [Valued.argument, Text.encodeUtf8_eq]

theorem notMem_encode_longName (o : Valued) : (61 : UInt8) ∉ Text.encodeUtf8 o.longName := by
  rw [Text.encodeUtf8_eq]
  cases o <;> decide

theorem argument_ne_dashes (o : Valued) (rest : List UInt8) : o.argument ++ rest ≠ [45, 45] := by
  rw [argument_eq]
  cases o <;> nofun

theorem not_isValue_of_dashes {rest : List UInt8} : ¬IsValue (45 :: 45 :: rest) := by
  rintro (h | h)
  · cases h
  · exact h rfl

/-- One more argument gives the value behind its equals sign, or is the value of the option before
it: the step lemma of `Gives`. -/
theorem gives_concat {arguments : List (List UInt8)} {argument : List UInt8} {o : Valued}
    {value : List UInt8} :
    Gives (arguments ++ [argument]) o value ↔
      Gives arguments o value ∨ argument = o.argument ++ 61 :: value ∨
        arguments.getLast? = some o.argument ∧ argument = value ∧ IsValue value := by
  constructor
  · rintro (attached | ⟨isValue, before, after, cut⟩)
    · -- A value behind an equals sign stands in one argument, so it is in the last or before it.
      rcases List.mem_append.1 attached with earlier | last
      · exact .inl (.inl earlier)
      · exact .inr (.inl (List.mem_singleton.1 last).symm)
    · -- The value is the last argument, or it stands among those before.
      rcases List.eq_nil_or_concat after with rfl | ⟨after, last, rfl⟩
      · have cut : arguments ++ [argument] = (before ++ [o.argument]) ++ [value] := by
          simpa using cut
        obtain ⟨rfl, same⟩ := List.append_inj' cut rfl
        refine .inr (.inr ⟨by simp, (List.cons.inj same).1, isValue⟩)
      · have cut :
            arguments ++ [argument] = (before ++ o.argument :: value :: after) ++ [last] := by
          simpa using cut
        obtain ⟨rfl, -⟩ := List.append_inj' cut rfl
        exact .inl (.inr ⟨isValue, before, after, rfl⟩)
  · rintro ((attached | ⟨isValue, before, after, rfl⟩) | rfl | ⟨last, rfl, isValue⟩)
    · exact .inl (List.mem_append_left _ attached)
    · exact .inr ⟨isValue, before, after ++ [argument], by simp⟩
    · exact .inl (by simp)
    · obtain ⟨before, rfl⟩ := List.getLast?_eq_some_iff.1 last
      exact .inr ⟨isValue, before, [], by simp⟩

/-! ## Setting an option -/

theorem pathValue_eq_ok {value : List UInt8} {path : String} (read : pathValue value = .ok path) :
    path = Text.decodeLenient value := by
  unfold pathValue at read
  split at read
  · cases read
  · cases read
    rfl

theorem textValue_eq_ok {value : List UInt8} {s : String} (read : textValue value = .ok s) :
    Text.decodeUtf8 value = some s := by
  unfold textValue at read
  split at read
  · next found =>
    cases read
    exact found
  · cases read

theorem wordValue_eq_ok {value : List UInt8} {n : Nat} (read : wordValue value = .ok n) :
    ∃ s, Text.decodeUtf8 value = some s ∧ Text.word? s = some n := by
  obtain ⟨s, text, read⟩ := exists_of_bind_eq_ok read
  refine ⟨s, textValue_eq_ok text, ?_⟩
  split at read
  · next word =>
    cases read
    exact word
  · cases read

theorem sets_of_set {c c' : CommandLine} {o : Valued} {value : List UInt8}
    (set : c.set o value = .ok c') : Sets o value c' := by
  cases o with
  | config =>
    obtain ⟨path, read, same⟩ := exists_of_bind_eq_ok set
    cases same
    exact pathValue_eq_ok read
  | logLevel =>
    obtain ⟨s, read, same⟩ := exists_of_bind_eq_ok set
    cases same
    exact ⟨s, textValue_eq_ok read, rfl⟩
  | logFormat =>
    obtain ⟨s, read, same⟩ := exists_of_bind_eq_ok set
    cases same
    exact ⟨s, textValue_eq_ok read, rfl⟩
  | storageDir =>
    obtain ⟨path, read, same⟩ := exists_of_bind_eq_ok set
    cases same
    exact congrArg some (pathValue_eq_ok read)
  | workloadSecs =>
    obtain ⟨n, read, same⟩ := exists_of_bind_eq_ok set
    cases same
    obtain ⟨s, text, word⟩ := wordValue_eq_ok read
    exact ⟨s, n, text, word, rfl⟩

/-- The command lines `c` and `c'` hold the same of the option `o`. -/
inductive Same (o : Valued) (c c' : CommandLine) : Prop
  | intro (sets : ∀ v, Sets o v c → Sets o v c') (unset : Unset o c → Unset o c')

theorem same_of_set {c c' : CommandLine} {o o' : Valued} {value : List UInt8} (other : o' ≠ o)
    (set : c.set o value = .ok c') : Same o' c c' := by
  cases o <;> obtain ⟨a, -, same⟩ := exists_of_bind_eq_ok set <;> cases same <;> cases o' <;>
    first
    | exact absurd rfl other
    | exact ⟨fun _ h => h, fun h => h⟩

namespace Progress

/-- What is known once `arguments` have been read, and the options of `values` have been settled
with them: the invariant of the reader. -/
structure Reading (arguments : List (List UInt8)) (values : List (Valued × List UInt8))
    (p : Progress) : Prop where
  settled : p.settled = values.map Prod.fst
  sets : ∀ e ∈ values, Sets e.1 e.2 p.found
  unset : ∀ o ∉ p.settled, Unset o p.found
  /-- What the arguments give has been settled, or is the value of the option that was read last. -/
  gives : ∀ o value, o ≠ .config → (Gives arguments o value ↔
    (o, value) ∈ values ∨ p.pending = some (o, some value))
  /-- An option without its value was the last argument. -/
  waits : p.ended = false → ∀ o, o ≠ .config →
    (arguments.getLast? = some o.argument ↔ p.pending = some (o, none))

variable {arguments : List (List UInt8)} {values : List (Valued × List UInt8)} {p p' : Progress}

theorem Reading.start : Reading [] [] {} where
  settled := rfl
  sets := nofun
  unset o _ := by cases o <;> rfl
  gives o value _ := by simp [Gives]
  waits _ o _ := by simp

/-- An option that has not been settled is settled with its value, which `CommandLine.set` puts
in. -/
theorem settleOption_eq_ok {o : Valued} {value : List UInt8}
    (done : p.settleOption o value = .ok p') :
    o ∉ p.settled ∧ ∃ found, p.found.set o value = .ok found ∧
      p' = { p with found, settled := o :: p.settled } := by
  unfold settleOption at done
  by_cases repeated : p.settled.contains o = true
  · rw [if_pos repeated] at done
    cases done
  · rw [if_neg repeated] at done
    obtain ⟨found, set, same⟩ := exists_of_bind_eq_ok done
    cases same
    exact ⟨by simpa using repeated, found, set, rfl⟩

theorem Reading.settleOption (h : Reading arguments values p) {o : Valued} {value : List UInt8}
    {found : CommandLine} (fresh : o ∉ p.settled) (set : p.found.set o value = .ok found) :
    (∀ e ∈ (o, value) :: values, Sets e.1 e.2 found) ∧
      ∀ o' ∉ o :: p.settled, Unset o' found := by
  refine ⟨fun e he => ?_, fun o' ho' => ?_⟩
  · rcases List.mem_cons.1 he with rfl | earlier
    · exact sets_of_set set
    · have other : e.1 ≠ o := by
        rintro rfl
        exact fresh (h.settled ▸ List.mem_map_of_mem earlier)
      obtain ⟨sets, -⟩ := same_of_set other set
      exact sets _ (h.sets e earlier)
  · rw [List.mem_cons, not_or] at ho'
    obtain ⟨-, unset⟩ := same_of_set ho'.1 set
    exact unset (h.unset o' ho'.2)

theorem Reading.settle (h : Reading arguments values p) (done : p.settle = .ok p') :
    ∃ values', Reading arguments values' p' ∧ p'.pending = none ∧ p'.ended = p.ended := by
  unfold Progress.settle at done
  split at done
  · next none =>
    cases done
    exact ⟨values, h, none, rfl⟩
  · cases done
  · next o value last =>
    obtain ⟨fresh, found, set, rfl⟩ := settleOption_eq_ok done
    obtain ⟨sets, unset⟩ := h.settleOption fresh set
    refine ⟨(o, value) :: values, ⟨?_, sets, unset, fun o' v named => ?_, fun going o' named => ?_⟩,
      rfl, rfl⟩
    · rw [List.map_cons, ← h.settled]
    · rw [h.gives o' v named, last]
      simp [or_comm, eq_comm]
    · rw [h.waits going o' named, last]
      simp

/-- The `argument` spells an option as `switch`, with its value `attached` perhaps, if the option is
none that a letter spells. -/
structure Spelt (argument : List UInt8) (switch : Switch) (attached : Option (List UInt8)) :
    Prop where
  attached_iff : ∀ o value, o ≠ .config →
    (argument = o.argument ++ 61 :: value ↔ switch = .valued o ∧ attached = some value)
  alone_iff : ∀ o, o ≠ .config → (argument = o.argument ↔ switch = .valued o ∧ attached = none)

theorem Reading.gives_spelt (h : Reading arguments values p) (going : p.ended = false)
    (none : p.pending = none) {argument : List UInt8} {switch : Switch}
    {attached : Option (List UInt8)} (spelt : Spelt argument switch attached) {o : Valued}
    (named : o ≠ .config) (v : List UInt8) :
    Gives (arguments ++ [argument]) o v ↔
      (o, v) ∈ values ∨ switch = .valued o ∧ attached = some v := by
  rw [gives_concat, h.gives o v named, h.waits going o named, spelt.attached_iff o v named, none]
  simp

theorem Spelt.getLast?_iff {argument : List UInt8} {switch : Switch}
    {attached : Option (List UInt8)} (spelt : Spelt argument switch attached) {o : Valued}
    (named : o ≠ .config) :
    (arguments ++ [argument]).getLast? = some o.argument ↔
      switch = .valued o ∧ attached = none := by
  rw [List.getLast?_concat, Option.some_inj, spelt.alone_iff o named]

theorem Reading.validate (h : Reading arguments values p) :
    Reading arguments values { p with found := { p.found with validate := true } } where
  settled := h.settled
  sets e he := by
    have sets := h.sets e he
    unfold Sets at sets ⊢
    split at sets <;> exact sets
  unset o ho := by
    have unset := h.unset o ho
    unfold Unset at unset ⊢
    split at unset <;> exact unset
  gives := h.gives
  waits := h.waits

/-- An option is read after the one before it has been settled, and the invariant holds with
both. -/
theorem Reading.readSwitch (h : Reading arguments values p) (going : p.ended = false)
    {argument : List UInt8} {switch : Switch} {attached : Option (List UInt8)}
    (spelt : Spelt argument switch attached) (done : p.readSwitch switch attached = .ok p') :
    ∃ values', Reading (arguments ++ [argument]) values' p' := by
  unfold Progress.readSwitch at done
  split at done
  · next o value =>
    obtain ⟨q, settled, done⟩ := exists_of_bind_eq_ok done
    obtain ⟨values, h, none, ended⟩ := h.settle settled
    obtain ⟨fresh, found, set, rfl⟩ := settleOption_eq_ok done
    obtain ⟨sets, unset⟩ := h.settleOption fresh set
    refine ⟨(o, value) :: values, ⟨?_, sets, unset, fun o' v named => ?_, fun _ o' named => ?_⟩⟩
    · rw [List.map_cons, ← h.settled]
    · rw [h.gives_spelt (ended.trans going) none spelt named v, none]
      simp [or_comm, eq_comm]
    · rw [spelt.getLast?_iff named, none]
      simp
  · next o =>
    obtain ⟨q, settled, same⟩ := exists_of_bind_eq_ok done
    obtain ⟨values, h, none, ended⟩ := h.settle settled
    cases same
    refine ⟨values, ⟨h.settled, h.sets, h.unset, fun o' v named => ?_, fun _ o' named => ?_⟩⟩
    · rw [h.gives_spelt (ended.trans going) none spelt named v]
      simp
    · rw [spelt.getLast?_iff named]
      simp
  · cases done
  · obtain ⟨q, settled, done⟩ := exists_of_bind_eq_ok done
    obtain ⟨values, h, none, ended⟩ := h.settle settled
    split at done
    · cases done
    · cases done
      have validated := h.validate
      refine ⟨values, ⟨validated.settled, validated.sets, validated.unset, fun o' v named => ?_,
        fun _ o' named => ?_⟩⟩
      · rw [h.gives_spelt (ended.trans going) none spelt named v, none]
        simp
      · rw [spelt.getLast?_iff named, none]
        simp
  -- The switches that are left end the reading.
  · obtain ⟨_, -, done⟩ := exists_of_bind_eq_ok done
    cases done
  · obtain ⟨_, -, done⟩ := exists_of_bind_eq_ok done
    cases done

theorem longName_of_ofLong? {name : String} {o : Valued}
    (found : Switch.ofLong? name = some (.valued o)) : name = o.longName := by
  obtain ⟨e, there, same⟩ := Option.map_eq_some_iff.1 found
  have named : e.1 = name := by simpa using List.find?_some there
  have known := List.mem_of_find?_eq_some there
  rw [← named]
  simp only [List.mem_cons, List.not_mem_nil, or_false] at known
  rcases known with rfl | rfl | rfl | rfl | rfl | rfl | rfl | rfl <;> cases same <;> rfl

theorem ofLong?_longName (o : Valued) : Switch.ofLong? o.longName = some (.valued o) := by
  cases o <;> decide

theorem dropWhile_eq {argument name : List UInt8} (plain : 61 ∉ name) :
    (argument = name ↔
      argument.takeWhile (· != 61) = name ∧ (argument.dropWhile (· != 61)).tail? = none) ∧
    ∀ value, (argument = name ++ 61 :: value ↔
      argument.takeWhile (· != 61) = name ∧
        (argument.dropWhile (· != 61)).tail? = some value) := by
  -- What is taken stops at the first equals sign, and the name has none.
  have all : ∀ b ∈ name, (b != 61) = true := by
    intro b hb
    simpa using fun same : b = 61 => plain (same ▸ hb)
  have parts := List.takeWhile_append_dropWhile (p := (· != 61)) (l := argument)
  refine ⟨⟨?_, ?_⟩, fun value => ⟨?_, ?_⟩⟩
  · rintro rfl
    have nothing : argument.dropWhile (· != 61) = [] := by
      rw [← List.append_nil argument, List.dropWhile_append_of_pos all, List.dropWhile_nil]
    rw [nothing, List.append_nil] at parts
    rw [nothing]
    exact ⟨parts, rfl⟩
  · rintro ⟨rfl, behind⟩
    cases rest : argument.dropWhile (· != 61) with
    | nil =>
      rw [rest, List.append_nil] at parts
      exact parts.symm
    | cons b rest' =>
      rw [rest] at behind
      cases behind
  · rintro rfl
    rw [List.takeWhile_append_of_pos all, List.dropWhile_append_of_pos all]
    simp
  · rintro ⟨rfl, behind⟩
    cases rest : argument.dropWhile (· != 61) with
    | nil =>
      rw [rest] at behind
      cases behind
    | cons b rest' =>
      -- What was not taken begins with the sign.
      have sign := List.head?_dropWhile_not (· != 61) argument
      rw [rest] at behind sign parts
      obtain rfl := Option.some.inj behind
      have equals : b = 61 := by simpa using sign
      rw [equals] at parts
      exact parts.symm

/-- What an argument with two dashes spells, whether a value is attached to it or not. -/
theorem spelt_long {argument : List UInt8} {switch : Switch}
    (found : (Text.decodeUtf8 (argument.takeWhile (· != 61))).bind Switch.ofLong? = some switch) :
    Spelt (45 :: 45 :: argument) switch (argument.dropWhile (· != 61)).tail? := by
  have name_iff (o : Valued) :
      argument.takeWhile (· != 61) = Text.encodeUtf8 o.longName ↔ switch = .valued o := by
    obtain ⟨name, decoded, known⟩ := Option.bind_eq_some_iff.1 found
    -- The name before the equals sign is read as `switch` only if it is its long name.
    constructor
    · intro same
      rw [Text.decodeUtf8_eq_some_iff.2 same] at decoded
      cases decoded
      rw [ofLong?_longName] at known
      exact (Option.some.inj known).symm
    · rintro rfl
      rw [longName_of_ofLong? known] at decoded
      exact Text.decodeUtf8_eq_some_iff.1 decoded
  refine ⟨fun o value _ => ?_, fun o _ => ?_⟩
  · rw [← name_iff, ← (dropWhile_eq (notMem_encode_longName o)).2 value]
    simp [Valued.argument]
  · rw [← name_iff, ← (dropWhile_eq (notMem_encode_longName o)).1]
    simp [Valued.argument]

theorem spelt_letters {letter : UInt8} {rest : List UInt8} (single : letter ≠ 45) (switch : Switch)
    (attached : Option (List UInt8)) (short : ∀ o, switch = .valued o → o = .config) :
    Spelt (45 :: letter :: rest) switch attached := by
  refine ⟨fun o value named => ?_, fun o named => ?_⟩
  · refine iff_of_false ?_ fun ⟨same, _⟩ => named (short o same)
    intro same
    exact single (List.cons.inj (List.cons.inj same).2).1
  · refine iff_of_false ?_ fun ⟨same, _⟩ => named (short o same)
    intro same
    exact single (List.cons.inj (List.cons.inj same).2).1

theorem config_of_ofLetter? {letter : UInt8} {o : Valued}
    (found : Switch.ofLetter? letter = some (.valued o)) : o = .config := by
  unfold Switch.ofLetter? at found
  split at found
  · cases found
    rfl
  · split at found
    · cases found
    · split at found <;> cases found

theorem Reading.readLetters (h : Reading arguments values p) (going : p.ended = false)
    {letter : UInt8} {rest : List UInt8} (single : letter ≠ 45)
    (done : p.readLetters (letter :: rest) = .ok p') :
    ∃ values', Reading (arguments ++ [45 :: letter :: rest]) values' p' := by
  rw [Progress.readLetters] at done
  split at done
  · cases done
  · next o found =>
    have short : ∀ o', Switch.valued o = .valued o' → o' = .config := by
      rintro o' ⟨⟩
      exact config_of_ofLetter? found
    split at done <;> exact h.readSwitch going (spelt_letters single _ _ short) done
  · next switch notValued found =>
    -- The other letters ask for texts and end the reading.
    obtain ⟨q, read, -⟩ := exists_of_bind_eq_ok done
    cases switch with
    | valued o => exact absurd rfl (notValued o)
    | validate =>
      unfold Switch.ofLetter? at found
      split at found
      · cases found
      · split at found
        · cases found
        · split at found <;> cases found
    | help =>
      obtain ⟨_, -, read⟩ := exists_of_bind_eq_ok read
      cases read
    | version =>
      obtain ⟨_, -, read⟩ := exists_of_bind_eq_ok read
      cases read

theorem Reading.readPlain (h : Reading arguments values p) (going : p.ended = false)
    {argument : List UInt8} (isValue : IsValue argument)
    (done : p.readPlain argument = .ok p') :
    ∃ values', Reading (arguments ++ [argument]) values' p' := by
  -- An option has two dashes in front, and a value may not have them.
  have dashes (rest : List UInt8) : argument ≠ 45 :: 45 :: rest := by
    rintro rfl
    exact not_isValue_of_dashes isValue
  unfold Progress.readPlain at done
  split at done
  · next o last =>
    rw [if_neg (by simp [going])] at done
    cases done
    -- The value waits behind its option and is put into the command line later.
    refine ⟨values, ⟨h.settled, h.sets, h.unset, fun o' v named => ?_, fun _ o' named => ?_⟩⟩
    · rw [gives_concat, h.gives o' v named, h.waits going o' named, last]
      have attached : argument ≠ o'.argument ++ 61 :: v := dashes _
      constructor
      · rintro ((earlier | ⟨⟨⟩⟩) | same | ⟨⟨⟩, rfl, -⟩)
        · exact .inl earlier
        · exact absurd same attached
        · exact .inr rfl
      · rintro (earlier | ⟨⟨⟩⟩)
        · exact .inl (.inl earlier)
        · exact .inr (.inr ⟨rfl, rfl, isValue⟩)
    · rw [List.getLast?_concat]
      have alone : argument ≠ o'.argument := dashes _
      simp [alone]
  · cases done

/-- Reading one more argument keeps what is known, by one lemma for each kind of argument. -/
theorem Reading.read (h : Reading arguments values p) {argument : List UInt8}
    (done : p.read argument = .ok p') :
    ∃ values', Reading (arguments ++ [argument]) values' p' := by
  unfold Progress.read at done
  split at done
  · cases done
  · next going =>
    have going : p.ended = false := by simpa using going
    split at done
    · cases done
      -- The two dashes give no option a value, and after them no option is read.
      refine ⟨values, ⟨h.settled, h.sets, h.unset, fun o v named => ?_, nofun⟩⟩
      rw [gives_concat, h.gives o v named]
      constructor
      · rintro (earlier | same | ⟨-, rfl, isValue⟩)
        · exact earlier
        · exact absurd same.symm (argument_ne_dashes o _)
        · exact absurd isValue not_isValue_of_dashes
      · exact .inl
    · next rest =>
      -- An argument with two dashes in front is one of the options, or it is refused.
      unfold Progress.readLong at done
      dsimp only at done
      split at done
      · cases done
      · next switch found => exact h.readSwitch going (spelt_long found) done
    · exact h.readPlain going (.inl rfl) done
    · next rest notDashes notLong notDash =>
      cases rest with
      -- One dash alone is a value, so at least one letter follows.
      | nil => exact absurd rfl notDash
      | cons letter rest =>
        have single : letter ≠ 45 := by
          rintro rfl
          exact notLong rest rfl
        exact h.readLetters going single done
    · next noOption =>
      refine h.readPlain going (.inr ?_) done
      intro dash
      obtain ⟨rest, rfl⟩ := List.head?_eq_some_iff.1 dash
      exact noOption rest rfl

theorem reading_foldlM {more : List (List UInt8)} (h : Reading arguments values p)
    (done : more.foldlM Progress.read p = .ok p') :
    ∃ values', Reading (arguments ++ more) values' p' := by
  induction more generalizing arguments values p with
  | nil =>
    cases done
    exact ⟨values, by rwa [List.append_nil]⟩
  | cons argument more ih =>
    obtain ⟨q, read, rest⟩ := exists_of_bind_eq_ok done
    obtain ⟨values', h'⟩ := h.read read
    rw [List.append_cons]
    exact ih h' rest

end Progress

/-- An option has the value that the arguments give it, and none if they give it none. -/
theorem parse_gives {arguments : List (List UInt8)} {c : CommandLine}
    (parsed : parse arguments = .ok c) {o : Valued} (named : o ≠ .config) :
    (∀ value, Gives arguments o value → Sets o value c) ∧
      ((∀ value, ¬Gives arguments o value) → Unset o c) := by
  obtain ⟨p, read, rest⟩ := exists_of_bind_eq_ok parsed
  obtain ⟨q, settled, same⟩ := exists_of_bind_eq_ok rest
  cases same
  obtain ⟨values, reading⟩ := Progress.reading_foldlM .start read
  obtain ⟨values', reading, none, -⟩ := reading.settle settled
  rw [List.nil_append] at reading
  have given (value : List UInt8) : Gives arguments o value ↔ (o, value) ∈ values' := by
    rw [reading.gives o value named, none]
    simp
  refine ⟨fun value h => reading.sets _ ((given value).1 h), fun nothing => ?_⟩
  refine reading.unset o fun h => ?_
  rw [reading.settled] at h
  obtain ⟨e, there, rfl⟩ := List.mem_map.1 h
  exact nothing e.2 ((given e.2).2 there)

end CommandLine
end Vigil
