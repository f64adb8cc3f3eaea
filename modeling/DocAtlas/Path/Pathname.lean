/-!
Pathnames: the segments that address a documented entity.

Every segment but the last keeps the punctuation that joins it to the next one: `/` behind a
directory, `.` for ordinary containment, `#` for an instance member of a class. The segments of
`./dir/file.Class#method` are `./`, `dir/`, `file.`, `Class#` and `method`, and their concatenation
is the text again.
-/

set_option autoImplicit false

namespace DocAtlas

/-- The segments of a path, from the outermost on. -/
abbrev Pathname : Type := List String

/-- Whether the last character of a text is `c`. -/
def endsIn (c : Char) (s : String) : Bool := s.toList.getLast? == some c

namespace Pathname

/-- The path in one piece. -/
def text (path : Pathname) : String := String.join path

/-! ## Splitting a text -/

/-- Whether a segment ends behind a character: behind every `/`, and behind a `.` or `#` unless a
`.` or a `/` follows, as in `./` and `../`. -/
def isBoundary (c : Char) (next : Option Char) : Bool :=
  c == '/' || ((c == '.' || c == '#') && !(next == some '.' || next == some '/'))

/-- The segments of a text whose first segment has already begun with `current`, last character
first. -/
def parseFrom (current : List Char) : List Char → Pathname
  | [] => if current.isEmpty then [] else [String.ofList current.reverse]
  | c :: rest =>
    if isBoundary c rest.head? then String.ofList (c :: current).reverse :: parseFrom [] rest
    else parseFrom (c :: current) rest

/-- The segments of a text. -/
def parse (s : String) : Pathname := parseFrom [] s.toList

/-! ## Dotted file stems -/

/-- The segments behind the last directory. -/
def behindDirectories (path : Pathname) : Pathname :=
  (path.reverse.takeWhile fun segment => !endsIn '/' segment).reverse

/-- The segments up to the last directory. -/
def directories (path : Pathname) : Pathname :=
  path.take (path.length - (behindDirectories path).length)

/-- The paths in which two or more of the leading dotted segments are one, and something is left
behind them; `stem` is what has been put together so far. -/
def mergedStems (stem : String) : Pathname → List Pathname
  | [] => []
  | segment :: rest =>
    if endsIn '.' segment then
      let merged := stem ++ segment
      if stem.isEmpty || rest.isEmpty then mergedStems merged rest
      else (merged :: rest) :: mergedStems merged rest
    else []

/-- Every way to split a text, since the stem of a file may contain dots (`index.d.ts` has the stem
`index.d`): first the plain one, then the ones with longer and longer stems. -/
def parseAlternatives (s : String) : List Pathname :=
  let plain := parse s
  plain :: (mergedStems "" (behindDirectories plain)).map (directories plain ++ ·)

end Pathname

end DocAtlas
