import DocAtlas.Path.Pathname

/-!
File paths: relative paths by text alone, and the segments that a source file contributes to a
pathname.

A path is absolute when it starts with `/`. Its components are what stands between the slashes, with
empty ones and `.` left out.
-/

set_option autoImplicit false

namespace DocAtlas.FilePath

/-- The parts of a text between the occurrences of a character. -/
def splitAt (sep : Char) : List Char → List (List Char)
  | [] => [[]]
  | c :: rest =>
    if c = sep then [] :: splitAt sep rest
    else
      match splitAt sep rest with
      | [] => [[c]]
      | part :: parts => (c :: part) :: parts

/-- The parts of a text between slashes. -/
def parts (path : String) : List String := (splitAt '/' path.toList).map String.ofList

/-- Whether a path starts at the root. -/
def isAbsolute (path : String) : Bool := path.toList.head? == some '/'

/-- A path as seen from the root, when it is given in the directory `here`. -/
def absolute (here path : String) : String := if isAbsolute path then path else here ++ "/" ++ path

/-- The last part of a path. -/
def basename (path : String) : String := (parts path).getLast?.getD ""

/-! ## Relative paths -/

/-- The components of a path. -/
def components (path : String) : List String :=
  (parts path).filter fun part => part != "" && part != "."

/-- Applies a component to a list of them, the last one first: `..` takes away the component before
it unless that is `..` too, or there is none. -/
def applyComponent (above : List String) (part : String) : List String :=
  if part = ".." then
    match above with
    | last :: rest => if last = ".." then ".." :: last :: rest else rest
    | [] => [".."]
  else part :: above

/-- The components of a path with every `..` that can be resolved taken out. -/
def normalized (path : String) : List String :=
  ((components path).foldl applyComponent []).reverse

/-- The length of the longest common prefix of two lists. -/
def commonLength : List String → List String → Nat
  | a :: as, b :: bs => if a = b then commonLength as bs + 1 else 0
  | _, _ => 0

/-- A path as seen from a base directory. When only one of the two is absolute they cannot be
compared, and the path itself comes back, normalized. -/
def relativeTo (path base : String) : String :=
  let pathParts := normalized path
  let baseParts := normalized base
  if isAbsolute path != isAbsolute base then
    (if isAbsolute path then "/" else "") ++ "/".intercalate pathParts
  else
    let common := commonLength pathParts baseParts
    let steps := List.replicate (baseParts.length - common) ".." ++ pathParts.drop common
    if steps.isEmpty then "." else "/".intercalate steps

/-! ## Segments -/

/-- A file name up to its last dot; a name whose only dot comes first is kept whole. -/
def dropExtension (name : String) : String :=
  let letters := name.toList
  let stem := letters.take (letters.length - (letters.reverse.takeWhile (· ≠ '.')).length - 1)
  if stem.isEmpty || !letters.contains '.' then name else String.ofList stem

/-- Whether a path says where it starts. -/
def isRooted (path : String) : Bool :=
  match path.toList with
  | '/' :: _ => true
  | '.' :: '/' :: _ => true
  | '.' :: '.' :: '/' :: _ => true
  | _ => false

/-- The segments of a source file: each directory with its slash, from `./` on if the path does not
say where it starts, and the file name without its extension. -/
def segments (path : String) : Pathname :=
  if path.isEmpty then []
  else
    let all := parts (if isRooted path then path else "./" ++ path)
    all.dropLast.map (· ++ "/") ++ [dropExtension (all.getLast?.getD "")]

end DocAtlas.FilePath
