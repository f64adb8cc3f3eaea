import DocAtlas.Path.FilePath

/-!
Where a declaration stands: its path and its source file.

A path is the path of the enclosing thing, closed with the delimiter that joins it, and the
declaration's own segments. What stands directly under the project has no path to hang on, so its
source file stands in for one, unless it is a module.
-/

set_option autoImplicit false

namespace DocAtlas

/-- The path of a declaration and its source file, which is that of the nearest enclosing one that
has a source if it has none of its own. -/
structure Place where
  path : Pathname
  filename : String
  deriving DecidableEq, Repr

instance : Inhabited Place := ⟨⟨[], ""⟩⟩

/-- What the enclosing thing is, as far as paths are concerned. -/
inductive Owner where
  | project
  | classDecl
  | other
  deriving DecidableEq, Repr

/-- The owner that a kind name stands for. -/
def Owner.ofKindName (name : String) : Owner :=
  if name = "Project" then .project else if name = "Class" then .classDecl else .other

namespace Pathname

/-- The path with a character added to its last segment. -/
def closeLast (delimiter : Char) : Pathname → Pathname
  | [] => []
  | [last] => [last.push delimiter]
  | segment :: rest => segment :: closeLast delimiter rest

/-- What joins a segment to its owner: `#` for an instance member of a class, `.` otherwise. -/
def delimiter (isStatic : Bool) (owner : Owner) : Char :=
  if !isStatic && owner = .classDecl then '#' else '.'

/-- The path that something hangs on. -/
def anchor (isModule : Bool) (owner : Owner) (parent : Pathname) (filename : String) : Pathname :=
  if owner = .project && !isModule && parent.isEmpty then FilePath.segments filename else parent

/-- Joins own segments onto the path of the owner. -/
def join (own : Pathname) (isModule isStatic : Bool) (owner : Owner) (parent : Pathname)
    (filename : String) : Pathname :=
  let above := anchor isModule owner parent filename
  if own.isEmpty then above
  else if above.isEmpty then own
  else closeLast (delimiter isStatic owner) above ++ own

/-- The name of the segment that stands for a type without a name. -/
def anonymous : String := "__type"

/-- A text without its last character if that is a `.`. -/
def dropDot (s : String) : String :=
  if endsIn '.' s then String.ofList s.toList.dropLast else s

/-- The path with its last segment changed. -/
def mapLast (f : String → String) : Pathname → Pathname
  | [] => []
  | [last] => [f last]
  | segment :: rest => segment :: mapLast f rest

/-- Takes the segment of a type without a name off the end of a path, with the dot that joined it.
Returns the path, and the name that it ends in now if anything was taken off and anything is
left. -/
def stripAnonymous (path : Pathname) : Pathname × Option String :=
  if path.getLast? = some anonymous then
    let above := mapLast dropDot path.dropLast
    (above, above.getLast?)
  else (path, none)

end Pathname

end DocAtlas
