/-!
# Paths

A path is a text. Joining a name to it puts one separator between them, and its components are the
names between separators, without empty ones and without single dots after the first.
-/

namespace Vigil

/-- One step of a path, as the file system takes it from left to right. -/
inductive Component where
  /-- The root of the file system. -/
  | root
  /-- The same directory, only at the front of a path. -/
  | current
  | parent
  | name (s : String)
  deriving DecidableEq, Repr

/-- Whether a component holds the character zero, which the name of nothing may hold. -/
def Component.hasZero : Component → Bool
  | .name s => s.toList.contains '\x00'
  | _ => false

namespace Path

def isAbsolute (path : String) : Bool := path.toList.head? == some '/'

/-- Joins `name` to `path` with a separator. A name that is an absolute path replaces it. -/
def join (path name : String) : String :=
  if isAbsolute name then name
  else if path.isEmpty ∨ path.toList.getLast? = some '/' then path ++ name
  else path ++ "/" ++ name

/-- The texts between the separators of a path, empty ones included. -/
def pieces (cs : List Char) : List (List Char) := cs.splitOn '/'

/-- The component of a piece after the first. Empty pieces and single dots have none. -/
def component? (piece : List Char) : Option Component :=
  if piece = [] ∨ piece = ['.'] then none
  else if piece = ['.', '.'] then some .parent
  else some (.name (String.ofList piece))

/-- The components of a path, in their order. Only the first can be the root or the same
directory. -/
def components (path : String) : List Component :=
  match pieces path.toList with
  | [] => []
  | first :: rest =>
    let front :=
      if isAbsolute path then [Component.root]
      else if first = ['.'] then [Component.current]
      else (component? first).toList
    front ++ rest.filterMap component?

/-- The components of the directory that holds a path. The root and the empty path have none. -/
def parent? (components : List Component) : Option (List Component) :=
  match components.getLast? with
  | none => none
  | some .root => none
  | some _ => some components.dropLast

example : components "./a//b/../" = [.current, .name "a", .name "b", .parent] := by decide +kernel

end Path
end Vigil
