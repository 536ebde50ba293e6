import Vigil.Proofs.Config.Arguments

/-!
# Arguments that only check

One option asks that the configuration is only checked. Nothing else in the arguments depends on it,
so wherever an option may begin, arguments with it are read as without it and ask for the same
besides; only if the others give it themselves it is repeated, and they are refused.

Every step of reading goes alike whether the option has been read or not (`Steady`). The only other
thing that the option does is that it settles the one before it, and it is of no matter to the rest
whether that has been done (`Late`).

The module introduces:

* `CommandLine.Progress.mark`, what has been read with the option;
* `CommandLine.Progress.Alike`, how reading comes out with the option and without it;
* `CommandLine.Progress.Steady` and `CommandLine.Progress.Late`, the two properties of a step;
* `CommandLine.OptionMayFollow`, the places for the option.
-/

namespace Vigil.CommandLine

def checkArgument : List UInt8 := Text.encodeUtf8 "--validate"

namespace Progress

/-- The progress `p`, when the option to check has been read besides. -/
def mark (p : Progress) : Progress := { p with found := { p.found with validate := true } }

/-- How reading comes out without the option and `within` it. Either it returns the same but for the
option, or with it something is refused, and then without it whatever is returned has read the
option itself. -/
def Alike (without within : Except UsageStop Progress) : Prop :=
  (∃ p, without = .ok p ∧ p.found.validate = false ∧ within = .ok p.mark) ∨
    (∃ e, within = .error e) ∧ ∀ p, without = .ok p → p.found.validate = true

/-- The step `f` reads alike with the option and without it, and never takes it back. -/
structure Steady (f : Progress → Except UsageStop Progress) : Prop where
  keeps : ∀ p q, f p = .ok q → p.found.validate = true → q.found.validate = true
  alike : ∀ p, p.found.validate = false → Alike (f p) (f p.mark)

namespace Steady

variable {f g : Progress → Except UsageStop Progress}

/-- Steps that do not look at the option are `Steady`. -/
theorem of_blind (same : ∀ p, f p.mark = (f p).map mark)
    (kept : ∀ p q, f p = .ok q → q.found.validate = p.found.validate) : Steady f where
  keeps p q done marked := (kept p q done).trans marked
  alike p unmarked := by
    rw [same]
    cases done : f p with
    | error e => exact .inr ⟨⟨e, rfl⟩, nofun⟩
    | ok q => exact .inl ⟨q, rfl, (kept p q done).trans unmarked, rfl⟩

theorem bind (first : Steady f) (next : Steady g) : Steady fun p => f p >>= g where
  keeps p r done marked := by
    obtain ⟨q, before, after⟩ := exists_of_bind_eq_ok done
    exact next.keeps q r after (first.keeps p q before marked)
  alike p unmarked := by
    rcases first.alike p unmarked with ⟨q, done, still, within⟩ | ⟨⟨e, within⟩, only⟩
    · rw [done, within]
      exact next.alike q still
    · -- With the option the first step has ended reading already.
      refine .inr ⟨⟨e, by rw [within]; rfl⟩, fun r done => ?_⟩
      obtain ⟨q, before, after⟩ := exists_of_bind_eq_ok done
      exact next.keeps q r after (only q before)

theorem refuse (e : UsageStop) : Steady fun _ => .error e where
  keeps _ _ := nofun
  alike _ _ := .inr ⟨⟨e, rfl⟩, nofun⟩

theorem unlessEnded (going : Steady f) :
    Steady fun p => if p.ended then .error .unknownArgument else f p where
  keeps p q done marked := by
    split at done
    · cases done
    · exact going.keeps p q done marked
  alike p unmarked := by
    show Alike _ (if p.ended then _ else _)
    split
    · exact (refuse .unknownArgument).alike p unmarked
    · exact going.alike p unmarked

/-- Options that ask to stop are looked at after the one before them, whatever that is. -/
theorem stop (first : Steady f) (e : UsageStop) :
    Steady fun p => f p >>= fun _ => .error e :=
  first.bind (refuse e)

end Steady

/-! ## Every step of reading is steady -/

theorem set_mark (c : CommandLine) (option : Valued) (value : List UInt8) :
    { c with validate := true }.set option value =
      (c.set option value).map fun c => { c with validate := true } := by
  unfold set
  cases option with
  | config | storageDir => cases pathValue value <;> rfl
  | logLevel | logFormat => cases textValue value <;> rfl
  | workloadSecs => cases wordValue value <;> rfl

theorem validate_of_set {c c' : CommandLine} {option : Valued} {value : List UInt8}
    (done : c.set option value = .ok c') : c'.validate = c.validate := by
  cases option <;>
  · obtain ⟨value, -, same⟩ := exists_of_bind_eq_ok done
    cases same
    rfl

theorem settleOption_mark (p : Progress) (option : Valued) (value : List UInt8) :
    p.mark.settleOption option value = (p.settleOption option value).map mark := by
  unfold settleOption
  show (if p.settled.contains option then _ else _) = _
  split
  · rfl
  · show (CommandLine.set { p.found with validate := true } option value).bind _ = _
    rw [set_mark]
    cases p.found.set option value <;> rfl

theorem validate_of_settleOption {p q : Progress} {option : Valued} {value : List UInt8}
    (done : p.settleOption option value = .ok q) : q.found.validate = p.found.validate := by
  unfold settleOption at done
  split at done
  · cases done
  · obtain ⟨found, set, same⟩ := exists_of_bind_eq_ok done
    cases same
    exact validate_of_set set

theorem steady_settleOption (option : Valued) (value : List UInt8) :
    Steady fun p => p.settleOption option value :=
  .of_blind (fun p => settleOption_mark p option value) fun _ _ => validate_of_settleOption

theorem steady_settle : Steady settle := by
  refine .of_blind (fun p => ?_) fun p q done => ?_
  · obtain ⟨found, settled, pending, ended⟩ := p
    rcases pending with - | ⟨option, - | value⟩
    · rfl
    · rfl
    · exact settleOption_mark ⟨found, settled, none, ended⟩ option value
  · obtain ⟨found, settled, pending, ended⟩ := p
    rcases pending with - | ⟨option, - | value⟩
    · cases done
      rfl
    · cases done
    · exact validate_of_settleOption (p := ⟨found, settled, none, ended⟩) done

theorem steady_await (option : Valued) :
    Steady fun p => .ok { p with pending := some (option, none) } := by
  refine .of_blind (fun p => rfl) fun p q done => ?_
  cases done
  rfl

/-- The option itself is refused when it has been read before, so it is steady as well. -/
theorem steady_check : Steady fun p =>
    if p.found.validate then .error .repeated else .ok p.mark where
  keeps p q done marked := by
    rw [if_pos marked] at done
    cases done
  alike p unmarked := by
    refine .inr ⟨⟨.repeated, rfl⟩, fun q done => ?_⟩
    rw [unmarked] at done
    cases done
    rfl

theorem steady_readSwitch (switch : Switch) (attached : Option (List UInt8)) :
    Steady fun p => p.readSwitch switch attached := by
  cases switch with
  | valued option =>
    cases attached with
    | some value => exact steady_settle.bind (steady_settleOption option value)
    | none => exact steady_settle.bind (steady_await option)
  | validate =>
    cases attached with
    | some value => exact .refuse .unwantedValue
    | none => exact steady_settle.bind steady_check
  | help =>
    cases attached with
    | some value => exact .refuse .unwantedValue
    | none => exact steady_settle.stop .help
  | version =>
    cases attached with
    | some value => exact .refuse .unwantedValue
    | none => exact steady_settle.stop .version

theorem steady_readLong (argument : List UInt8) : Steady fun p => p.readLong argument := by
  unfold readLong
  dsimp only
  split
  · exact .refuse .unknownArgument
  · exact steady_readSwitch _ _

/-- The letters of one argument: one that takes no value is followed by the others, by induction on
them. -/
theorem steady_readLetters (letters : List UInt8) : Steady fun p => p.readLetters letters := by
  induction letters with
  | nil => exact .of_blind (fun _ => rfl) fun p q done => by cases done; rfl
  | cons letter rest ih =>
    unfold readLetters
    split
    · exact .refuse .unknownArgument
    · split
      · exact steady_readSwitch _ none
      · exact steady_readSwitch _ (some _)
      · exact steady_readSwitch _ (some _)
    · next switch _ _ => exact (steady_readSwitch switch none).bind ih

theorem steady_readPlain (argument : List UInt8) : Steady fun p => p.readPlain argument := by
  refine .of_blind (fun p => ?_) fun p q done => ?_
  · obtain ⟨found, settled, pending, ended⟩ := p
    rcases pending with - | ⟨option, - | value⟩
    · rfl
    · cases ended <;> rfl
    · rfl
  · obtain ⟨found, settled, pending, ended⟩ := p
    rcases pending with - | ⟨option, - | value⟩
    · cases done
    · cases ended <;> cases done
      rfl
    · cases done

theorem steady_read (argument : List UInt8) : Steady fun p => p.read argument := by
  unfold read
  refine .unlessEnded ?_
  split
  · exact .of_blind (fun _ => rfl) fun p q done => by cases done; rfl
  · exact steady_readLong _
  · exact steady_readPlain _
  · exact steady_readLetters _
  · exact steady_readPlain _

theorem steady_foldlM (arguments : List (List UInt8)) :
    Steady fun p => arguments.foldlM read p := by
  induction arguments with
  | nil => exact .of_blind (fun _ => rfl) fun p q done => by cases done; rfl
  | cons argument rest ih => exact (steady_read argument).bind ih

/-! ## When the option before is settled -/

def Waits (p : Progress) : Prop := ∃ option, p.pending = some (option, none)

/-- Two results are the same as far as something is returned, whichever error there is otherwise. -/
def SameReturn (x y : Except UsageStop Progress) : Prop := ∀ r, x = .ok r ↔ y = .ok r

theorem SameReturn.bind {x y : Except UsageStop Progress} (same : SameReturn x y)
    (f : Progress → Except UsageStop Progress) : SameReturn (x >>= f) (y >>= f) := by
  intro r
  constructor
  · intro done
    obtain ⟨p, first, next⟩ := exists_of_bind_eq_ok done
    rw [(same p).1 first]
    exact next
  · intro done
    obtain ⟨p, first, next⟩ := exists_of_bind_eq_ok done
    rw [(same p).2 first]
    exact next

/-- The step `f` does not depend on whether the option before it has been settled, as far as it
returns. -/
def Late (f : Progress → Except UsageStop Progress) : Prop :=
  ∀ p, ¬p.Waits → SameReturn (f p) (p.settle >>= f)

theorem settle_of_settle {p q : Progress} (done : p.settle = .ok q) :
    q.pending = none ∧ q.ended = p.ended := by
  obtain ⟨found, settled, pending, ended⟩ := p
  rcases pending with - | ⟨option, - | value⟩
  · cases done
    exact ⟨rfl, rfl⟩
  · cases done
  · obtain ⟨-, found', -, rfl⟩ := settleOption_eq_ok done
    exact ⟨rfl, rfl⟩

namespace Late

variable {f g : Progress → Except UsageStop Progress}

theorem of_settle (g : Progress → Except UsageStop Progress) : Late fun p => p.settle >>= g := by
  intro p _
  show SameReturn (p.settle >>= g) (p.settle >>= fun q => q.settle >>= g)
  cases done : p.settle with
  | error e => exact fun _ => Iff.rfl
  | ok q =>
    have again : q.settle = .ok q := by
      unfold settle
      rw [(settle_of_settle done).1]
    show SameReturn (g q) (q.settle >>= g)
    rw [again]
    exact fun _ => Iff.rfl

theorem refuse (e : UsageStop) : Late fun _ => .error e := by
  intro p _ r
  refine iff_of_false nofun fun done => ?_
  obtain ⟨q, -, next⟩ := exists_of_bind_eq_ok done
  cases next

theorem unlessEnded (going : Late f) :
    Late fun p => if p.ended then .error .unknownArgument else f p := by
  intro p whole r
  have same := going p whole r
  show (if p.ended then _ else _) = _ ↔ _
  cases settled : p.settle with
  | error e =>
    rw [settled] at same
    split
    · exact iff_of_false nofun nofun
    · exact same
  | ok q =>
    rw [settled] at same
    show _ ↔ (if q.ended then _ else _) = _
    rw [(settle_of_settle settled).2]
    split
    · exact iff_of_false nofun nofun
    · exact same

theorem bind (first : Late f) (g : Progress → Except UsageStop Progress) :
    Late fun p => f p >>= g := by
  intro p whole
  have same := (first p whole).bind g
  rwa [bind_assoc] at same

end Late

theorem late_readSwitch (switch : Switch) (attached : Option (List UInt8)) :
    Late fun p => p.readSwitch switch attached := by
  cases switch with
  | valued option => cases attached <;> exact .of_settle _
  | validate | help | version =>
    cases attached with
    | some value => exact .refuse .unwantedValue
    | none => exact .of_settle _

theorem late_readPlain (argument : List UInt8) : Late fun p => p.readPlain argument := by
  intro p whole r
  have refused {q : Progress} (whole : ¬q.Waits) :
      q.readPlain argument = .error .unknownArgument := by
    unfold readPlain
    split
    · next option waits => exact absurd ⟨option, waits⟩ whole
    · rfl
  show p.readPlain argument = _ ↔ _
  rw [refused whole]
  refine iff_of_false nofun fun done => ?_
  obtain ⟨q, settled, next⟩ := exists_of_bind_eq_ok done
  have none : ¬q.Waits := by
    rintro ⟨option, waits⟩
    cases (settle_of_settle settled).1.symm.trans waits
  cases (refused none).symm.trans next

theorem late_readLong (argument : List UInt8) : Late fun p => p.readLong argument := by
  unfold readLong
  dsimp only
  split
  · exact .refuse .unknownArgument
  · exact late_readSwitch _ _

theorem late_readLetters (letter : UInt8) (rest : List UInt8) :
    Late fun p => p.readLetters (letter :: rest) := by
  unfold readLetters
  split
  · exact .refuse .unknownArgument
  · split
    · exact late_readSwitch _ none
    · exact late_readSwitch _ (some _)
    · exact late_readSwitch _ (some _)
  · next switch _ _ => exact (late_readSwitch switch none).bind _

theorem late_read {argument : List UInt8} (option : argument ≠ [45, 45]) :
    Late fun p => p.read argument := by
  unfold read
  refine .unlessEnded ?_
  split
  · exact absurd rfl option
  · exact late_readLong _
  · exact late_readPlain _
  · next letters _ _ alone =>
    cases letters with
    | nil => exact absurd rfl alone
    | cons letter rest => exact late_readLetters letter rest
  · exact late_readPlain _

def finish (p : Progress) : Progress := { p with ended := true }

theorem settle_finish (p : Progress) : p.finish.settle = p.settle.map finish := by
  obtain ⟨found, settled, pending, ended⟩ := p
  rcases pending with - | ⟨option, - | value⟩
  · rfl
  · rfl
  · show settleOption ⟨found, settled, none, true⟩ option value =
      (settleOption ⟨found, settled, none, ended⟩ option value).map finish
    unfold settleOption
    dsimp only
    split
    · rfl
    · cases found.set option value <;> rfl

/-- The `arguments` that are left are read, and the last option is settled. -/
def readRest (arguments : List (List UInt8)) (p : Progress) : Except UsageStop Progress :=
  arguments.foldlM read p >>= settle

/-- It is of no matter to `readRest` whether the option before it has been settled. -/
theorem late_readRest (arguments : List (List UInt8)) : Late (readRest arguments) := by
  induction arguments with
  | nil =>
    have last : readRest [] = fun p => p.settle >>= pure := by
      funext p
      simp [readRest]
    rw [last]
    exact .of_settle pure
  | cons argument rest ih =>
    -- Reading the rest is reading its first argument and then the others.
    have next (p : Progress) :
        readRest (argument :: rest) p = p.read argument >>= readRest rest := by
      unfold readRest
      rw [List.foldlM_cons, bind_assoc]
    rw [funext next]
    by_cases dashes : argument = [45, 45]
    · -- The dashes themselves settle nothing.
      subst dashes
      intro p whole
      have ends (q : Progress) : q.read [45, 45] =
          if q.ended then .error .unknownArgument else .ok q.finish := rfl
      have after := ih p.finish whole
      rw [settle_finish] at after
      intro r
      have same := after r
      simp only [ends]
      cases settled : p.settle with
      | error e =>
        rw [settled] at same
        split
        · exact iff_of_false nofun nofun
        · exact same
      | ok q =>
        rw [settled] at same
        show _ ↔ ((if q.ended then _ else _) >>= readRest rest) = _
        rw [(settle_of_settle settled).2]
        split
        · exact iff_of_false nofun nofun
        · exact same
    · exact (late_read dashes).bind (readRest rest)

theorem steady_readRest (arguments : List (List UInt8)) : Steady (readRest arguments) :=
  (steady_foldlM arguments).bind steady_settle

theorem readRest_append (before after : List (List UInt8)) (p : Progress) :
    readRest (before ++ after) p = before.foldlM read p >>= readRest after := by
  unfold readRest
  rw [List.foldlM_append, bind_assoc]

/-! ## The option itself -/

/-- The option to check settles the one before it, and is refused when it has been read before. -/
theorem read_checkArgument {p : Progress} (going : p.ended = false) :
    p.read checkArgument =
      p.settle >>= fun q => if q.found.validate then .error .repeated else .ok q.mark := by
  have argument : checkArgument = [45, 45, 118, 97, 108, 105, 100, 97, 116, 101] := by
    decide +kernel
  have name : (Text.decodeUtf8 ([118, 97, 108, 105, 100, 97, 116, 101].takeWhile (· != 61))).bind
      Switch.ofLong? = some .validate := by
    decide +kernel
  have alone :
      ([118, 97, 108, 105, 100, 97, 116, 101].dropWhile fun c : UInt8 => c != 61) = [] := by
    decide +kernel
  rw [argument]
  show (if p.ended then _ else p.readLong [118, 97, 108, 105, 100, 97, 116, 101]) = _
  rw [going]
  unfold readLong
  simp only [name, alone]
  rfl

/-- The option can be given anywhere among arguments where one may begin: reading comes out
`Alike`. -/
theorem alike_insert {before : List (List UInt8)} (after : List (List UInt8))
    (begins : ∀ p, before.foldlM read {} = .ok p → p.ended = false ∧ ¬p.Waits) :
    Alike (readRest (before ++ after) {}) (readRest (before ++ checkArgument :: after) {}) := by
  -- What stands before is read either way, so the two readings part at the option.
  rw [readRest_append, readRest_append]
  cases read : before.foldlM Progress.read {} with
  | error e => exact .inr ⟨⟨e, rfl⟩, nofun⟩
  | ok p =>
    obtain ⟨going, whole⟩ := begins p read
    have same := late_readRest after p whole
    have within : readRest (checkArgument :: after) p = p.settle >>= fun q =>
        (if q.found.validate then .error .repeated else .ok q.mark) >>= readRest after := by
      show (p.read checkArgument >>= fun q => after.foldlM Progress.read q) >>= settle = _
      rw [read_checkArgument going, bind_assoc, bind_assoc]
      rfl
    show Alike (readRest after p) (readRest (checkArgument :: after) p)
    rw [within]
    cases settled : p.settle with
    | error e =>
      rw [settled] at same
      exact .inr ⟨⟨e, rfl⟩, fun r done => nomatch (same r).1 done⟩
    | ok q =>
      rw [settled] at same
      show Alike _ ((if q.found.validate then _ else _) >>= readRest after)
      cases marked : q.found.validate with
      | true =>
        -- The option stands before as well, and nothing takes that back.
        refine .inr ⟨⟨.repeated, rfl⟩, fun r done => ?_⟩
        exact (steady_readRest after).keeps q r ((same r).1 done) marked
      | false =>
        rcases (steady_readRest after).alike q marked with ⟨r, done, still, with'⟩ | ⟨refused, only⟩
        · exact .inl ⟨r, (same r).2 done, still, with'⟩
        · exact .inr ⟨refused, fun r done => only r ((same r).1 done)⟩

end Progress

/-- An option may begin after `arguments`: they do not end with one that waits for its value, and no
two dashes have ended the options. -/
def OptionMayFollow (arguments : List (List UInt8)) : Prop :=
  ∀ p, arguments.foldlM Progress.read {} = .ok p → p.ended = false ∧ ¬p.Waits

theorem optionMayFollow_nil : OptionMayFollow [] := by
  rintro p ⟨⟩
  refine ⟨rfl, ?_⟩
  rintro ⟨option, waits⟩
  cases waits

/-- What the arguments ask for with the option to check among them. Either they do not give it
besides and ask for the same, or they are refused, and then without it they ask for nothing or give
it still. -/
theorem parse_insert {before : List (List UInt8)} (begins : OptionMayFollow before)
    (after : List (List UInt8)) :
    (∃ line, parse (before ++ after) = .ok line ∧ line.validate = false ∧
      parse (before ++ checkArgument :: after) = .ok { line with validate := true }) ∨
    (∃ stop, parse (before ++ checkArgument :: after) = .error stop) ∧
      ∀ line, parse (before ++ after) = .ok line → line.validate = true := by
  have parse_eq (arguments : List (List UInt8)) :
      parse arguments = Progress.readRest arguments {} >>= fun p => .ok p.found := by
    unfold Progress.readRest
    rw [bind_assoc]
    rfl
  rw [parse_eq, parse_eq]
  rcases Progress.alike_insert after begins with ⟨p, done, unmarked, marked⟩ | ⟨⟨e, refused⟩, only⟩
  · rw [done, marked]
    exact .inl ⟨p.found, rfl, unmarked, rfl⟩
  · rw [refused]
    refine .inr ⟨⟨e, rfl⟩, fun line asked => ?_⟩
    obtain ⟨p, done, same⟩ := exists_of_bind_eq_ok asked
    cases same
    exact only p done

end Vigil.CommandLine
