import Vigil.Config.Overrides

/-!
# The command line

Arguments are octets. An option takes its value from the same argument or from the next one, unless
that is an option itself. The value of the last option is looked at only when the next one begins or
the arguments end, so an unknown argument counts before a bad value directly in front of it.
-/

namespace Vigil

/-- What the arguments of the program ask for, with the defaults of options that are not given. -/
structure CommandLine where
  /-- The path of the configuration file. -/
  configPath : String := "watchpost.toml"
  /-- Replaces how much is logged. -/
  logLevel : Option String := none
  /-- Replaces how log lines look. -/
  logFormat : Option String := none
  /-- Replaces the directory of the files. -/
  storageDir : Option String := none
  /-- Replaces how long the window stays open. -/
  workloadSecs : Option Nat := none
  /-- Only checks the configuration. -/
  validate : Bool := false
  deriving DecidableEq, Repr, Inhabited

/-- Why the arguments do not lead to a run. Two of these reasons are no errors. -/
inductive UsageStop where
  | help
  | version
  /-- An argument is none that is known. -/
  | unknownArgument
  /-- A value is missing or empty. -/
  | invalidValue
  | notText
  /-- A value does not spell what the option takes. -/
  | badValue
  | unwantedValue
  | repeated
  deriving DecidableEq, Repr

/-- The exit status of a program that stops for that reason: only help and version are no
mistake. -/
def UsageStop.exitCode : UsageStop → Nat
  | help => 0
  | version => 0
  | _ => 2

namespace CommandLine

/-- The options that take a value, each with a field of `CommandLine`. -/
inductive Valued where
  | config
  | logLevel
  | logFormat
  | storageDir
  | workloadSecs
  deriving DecidableEq, Repr

/-- An option that can stand among the arguments, with or without a value. -/
inductive Switch where
  | valued (option : Valued)
  | validate
  | help
  | version
  deriving DecidableEq, Repr

/-- The option of the long name `name`, if there is one. -/
def Switch.ofLong? (name : String) : Option Switch :=
  ([("config", .valued .config), ("log-level", .valued .logLevel),
    ("log-format", .valued .logFormat), ("storage-dir", .valued .storageDir),
    ("workload-secs", .valued .workloadSecs), ("validate", validate), ("help", help),
    ("version", version)].find? fun e => e.1 == name).map Prod.snd

/-- The option of a letter, given as the `octet` after a dash. -/
def Switch.ofLetter? (octet : UInt8) : Option Switch :=
  if octet = 99 then some (.valued .config) else if octet = 104 then some help
  else if octet = 86 then some version else none

def pathValue (value : List UInt8) : Except UsageStop String :=
  if value.isEmpty then .error .invalidValue else .ok (Text.decodeLenient value)

def textValue (value : List UInt8) : Except UsageStop String :=
  match Text.decodeUtf8 value with
  | some s => .ok s
  | none => .error .notText

/-- Reads the value of an option as a natural number of 64 bits, spelt as `word?` takes it. -/
def wordValue (value : List UInt8) : Except UsageStop Nat := do
  match Text.word? (← textValue value) with
  | some n => .ok n
  | none => .error .badValue

/-- Puts the `value` of an option into the command line `c`, if it spells what the option takes. -/
def set (c : CommandLine) (option : Valued) (value : List UInt8) : Except UsageStop CommandLine :=
  match option with
  | .config => do .ok { c with configPath := ← pathValue value }
  | .logLevel => do .ok { c with logLevel := some (← textValue value) }
  | .logFormat => do .ok { c with logFormat := some (← textValue value) }
  | .storageDir => do .ok { c with storageDir := some (← pathValue value) }
  | .workloadSecs => do .ok { c with workloadSecs := some (← wordValue value) }

/-- The arguments as far as they have been read, option by option. -/
structure Progress where
  /-- What they ask for so far. -/
  found : CommandLine := {}
  /-- The options that have been settled. -/
  settled : List Valued := []
  /-- The option that was read last, with its value if that has been read. -/
  pending : Option (Valued × Option (List UInt8)) := none
  /-- Whether two dashes have ended the options. -/
  ended : Bool := false

namespace Progress

/-- Settles `option` with its value, which is refused the second time. -/
def settleOption (p : Progress) (option : Valued) (value : List UInt8) :
    Except UsageStop Progress := do
  if p.settled.contains option then throw .repeated
  .ok { p with found := ← p.found.set option value, settled := option :: p.settled }

/-- Settles the option that was read last, whose value must have been read by now. -/
def settle (p : Progress) : Except UsageStop Progress :=
  match p.pending with
  | none => .ok p
  | some (_, none) => .error .invalidValue
  | some (option, some value) => settleOption { p with pending := none } option value

/-- Reads the option `switch`. If a value stands in the same argument it is `attached`. -/
def readSwitch (p : Progress) (switch : Switch) (attached : Option (List UInt8)) :
    Except UsageStop Progress :=
  -- The option before this one is settled first, unless this one is refused outright.
  match switch, attached with
  | .valued option, some value => do (← p.settle).settleOption option value
  | .valued option, none => do .ok { ← p.settle with pending := some (option, none) }
  | _, some _ => .error .unwantedValue
  | .validate, none => do
    let p ← p.settle
    if p.found.validate then throw .repeated
    .ok { p with found := { p.found with validate := true } }
  | .help, none => do
    let _ ← p.settle
    .error .help
  | .version, none => do
    let _ ← p.settle
    .error .version

/-- Reads an argument after its two dashes: a long name, and a value if an equals sign follows. -/
def readLong (p : Progress) (argument : List UInt8) : Except UsageStop Progress :=
  let name := argument.takeWhile (· != 61)
  match (Text.decodeUtf8 name).bind Switch.ofLong? with
  | none => .error .unknownArgument
  | some switch => p.readSwitch switch (argument.dropWhile (· != 61)).tail?

/-- Reads the letters of an argument after its dash. The first letter of an option that takes a
value takes the rest of the argument. -/
def readLetters (p : Progress) : List UInt8 → Except UsageStop Progress
  | [] => .ok p
  | letter :: rest =>
    match Switch.ofLetter? letter with
    | none => .error .unknownArgument
    | some (.valued option) =>
      match rest with
      | [] => p.readSwitch (.valued option) none
      | 61 :: value => p.readSwitch (.valued option) (some value)
      | value => p.readSwitch (.valued option) (some value)
    | some switch => do readLetters (← p.readSwitch switch none) rest

/-- Reads an argument that is no option: the value of the option before it, if that lacks one. -/
def readPlain (p : Progress) (argument : List UInt8) : Except UsageStop Progress :=
  match p.pending with
  -- Only an option without its value can take the argument.
  | some (option, none) =>
    if p.ended then .error .unknownArgument
    else .ok { p with pending := some (option, some argument) }
  | _ => .error .unknownArgument

def read (p : Progress) (argument : List UInt8) : Except UsageStop Progress :=
  if p.ended then .error .unknownArgument
  else
    match argument with
    | [45, 45] => .ok { p with ended := true }
    | 45 :: 45 :: rest => p.readLong rest
    | [45] => p.readPlain argument
    | 45 :: rest => p.readLetters rest
    | _ => p.readPlain argument

end Progress

/-- What the arguments of a program ask for, or why they do not lead to a run. -/
def parse (arguments : List (List UInt8)) : Except UsageStop CommandLine := do
  let p ← arguments.foldlM Progress.read {}
  .ok (← p.settle).found

/-- The configuration `config` once the command line has replaced values. Options that were not
given replace nothing. -/
def amend (c : CommandLine) (config : Config) : Config :=
  { config with
    general :=
      { logLevel := c.logLevel.getD config.general.logLevel
        logFormat := c.logFormat.getD config.general.logFormat
        storageDir := c.storageDir.getD config.general.storageDir }
    lifecycle :=
      { config.lifecycle with
        workloadSecs := c.workloadSecs.getD config.lifecycle.workloadSecs } }

end CommandLine
end Vigil
