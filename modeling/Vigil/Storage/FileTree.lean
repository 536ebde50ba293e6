import Vigil.Error
import Vigil.Storage.Path

/-!
# File trees

A file tree is a finite set of directories and files under one root, with a working directory.
Its operations refuse what a file system refuses, in the same order.
-/

namespace Vigil

/-- What stands at a place of a file tree: a directory, or a file with its content. -/
inductive Node where
  | directory
  | file (content : List UInt8)
  deriving DecidableEq, Repr

/-- A place in a file tree, which is the list of the names from the root to it. -/
abbrev Place := List String

/-- Directories and files by place. The root is always there and is always a directory. -/
structure FileTree where
  /-- What stands where, besides the root. -/
  nodes : List (Place × Node) := []
  workingDirectory : Place := []

namespace FileTree

instance : Inhabited FileTree := ⟨{}⟩

/-- What stands at `place`, if anything does. -/
def get? (t : FileTree) (place : Place) : Option Node :=
  if place.isEmpty then some .directory
  else (t.nodes.find? fun e => e.1 == place).map Prod.snd

/-- Puts `node` at `place`, instead of what stood there. -/
def set (t : FileTree) (place : Place) (node : Node) : FileTree :=
  { t with nodes := (t.nodes.filter fun e => e.1 != place) ++ [(place, node)] }

def longestName : Nat := 255

def longestPath : Nat := 4095

/-- Goes one step from the directory at `place`, by the component `c`. -/
def step (t : FileTree) (place : Place) (c : Component) : Except FileError Place :=
  match c with
  | .root => .ok []
  | .current => .ok place
  | .parent => .ok place.dropLast
  | .name s =>
    if longestName < s.utf8ByteSize then .error .nameTooLong
    else
      match t.get? (place ++ [s]) with
      | none => .error .notFound
      | some .directory => .ok (place ++ [s])
      | some (.file _) => .error .notADirectory

def walk (t : FileTree) (place : Place) : List Component → Except FileError Place
  | [] => .ok place
  | c :: rest => do walk t (← t.step place c) rest

/-- Whether `components` lead to a directory, step by step from the root. -/
def isDirectory (t : FileTree) (components : List Component) : Bool :=
  match t.walk t.workingDirectory components with
  | .ok _ => true
  | .error _ => false

/-- The place of the last component, whatever stands there, once all others lead to its directory.
There is no place, but no refusal either, for a directory that has no name of its own here. -/
def locate (t : FileTree) (components : List Component) : Except FileError (Option Place) := do
  match components.getLast? with
  | none => .error .notFound
  | some last =>
    let place ← t.walk t.workingDirectory components.dropLast
    match last with
    | .name s =>
      if longestName < s.utf8ByteSize then .error .nameTooLong else .ok (some (place ++ [s]))
    | _ => .ok none

def makeDirectory (t : FileTree) (components : List Component) : Except FileError FileTree := do
  match ← t.locate components with
  | none => .error .alreadyExists
  | some place =>
    match t.get? place with
    | some _ => .error .alreadyExists
    | none => .ok (t.set place .directory)

/-- Makes a directory and those above it, as far as they are missing, over `n` levels at most. -/
def makeDirectories : Nat → FileTree → List Component → Except FileError Unit × FileTree
  | n, t, components =>
    if components.isEmpty then (.ok (), t)
    else
      match t.makeDirectory components with
      | .ok t => (.ok (), t)
      -- Something above is missing, so that is made first.
      | .error .notFound =>
        match n, Path.parent? components with
        | n + 1, some above =>
          match makeDirectories n t above with
          | (.error e, t) => (.error e, t)
          | (.ok (), t) =>
            match t.makeDirectory components with
            | .ok t => (.ok (), t)
            | .error e => (if t.isDirectory components then .ok () else .error e, t)
        | _, _ => (.error .notFound, t)
      | .error e => (if t.isDirectory components then .ok () else .error e, t)

/-- The refusal of a path that no file system takes: one with the character zero, or one that is too
long. -/
def refusal? (path : String) : Option FileError :=
  if path.toList.contains '\x00' then some .zeroInPath
  else if longestPath < path.utf8ByteSize then some .nameTooLong
  else none

/-- Writes the file at `path`, whose directory must exist, in place of a file that stood there. -/
def writeFile (t : FileTree) (path : String) (content : List UInt8) :
    Except FileError FileTree := do
  if let some e := refusal? path then throw e
  match ← t.locate (Path.components path) with
  | none => .error .isADirectory
  | some place =>
    if path.toList.getLast? = some '/' then .error .isADirectory
    else
      match t.get? place with
      | some .directory => .error .isADirectory
      | _ => .ok (t.set place (.file content))

/-- Makes the directories above `path`, as far as they are missing. -/
def makeParents (t : FileTree) (path : String) : Except FileError Unit × FileTree :=
  match Path.parent? (Path.components path) with
  | none => (.ok (), t)
  | some above =>
    if above.any Component.hasZero then (.error .zeroInPath, t)
    else makeDirectories above.length t above

/-- Writes a file at `path`, after making the directories above it. These stay even if the file
itself is refused. -/
def put (t : FileTree) (path : String) (content : List UInt8) :
    Except FileError Unit × FileTree :=
  match t.makeParents path with
  | (.error e, t) => (.error e, t)
  | (.ok (), t) =>
    match t.writeFile path content with
    | .ok t => (.ok (), t)
    | .error e => (.error e, t)

/-- The octets of the file at `path`, or why there are none. -/
def contentAt (t : FileTree) (path : String) : Except FileError (List UInt8) := do
  if let some e := refusal? path then throw e
  match ← t.locate (Path.components path) with
  | none => .error .isADirectory
  | some place =>
    match t.get? place with
    | none => .error .notFound
    | some .directory => .error .isADirectory
    | some (.file content) =>
      if path.toList.getLast? = some '/' then .error .notADirectory else .ok content

/-- The nodes below `place`, with the names that lead to them from there. -/
def below (t : FileTree) (place : Place) : List (Place × Node) :=
  t.nodes.filterMap fun (p, node) =>
    if place.isPrefixOf p ∧ p ≠ place then some (p.drop place.length, node) else none

end FileTree
end Vigil
