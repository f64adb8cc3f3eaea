import DocAtlas.Conversion.Worklist

/-!
The entities of a document, addressed by the ends of their paths.

Entities are found through a suffix tree of their positions. A path that an earlier entity has taken
is not addressed again. Looking up a text tries every way to split it, since the dots of a file name
and those between names look alike.
-/

set_option autoImplicit false

namespace DocAtlas

/-- The entities of a document, their index, and their positions by path. -/
structure Analyzer where
  index : Index
  entities : List Entity
  byPath : SuffixTree Nat

/-- Adds the paths of entities from a position on. A path that is taken is an error if the
configuration is strict. -/
def addPaths (strict : Bool) (tree : SuffixTree Nat) (position : Nat) :
    List Entity → Attempt (SuffixTree Nat)
  | [] => pure tree
  | entity :: rest =>
    match tree.add entity.path position with
    | (tree, none) => addPaths strict tree (position + 1) rest
    | (tree, some e) =>
      if strict then throw (.lookup e)
      else do
        Attempt.log (.pathTaken entity.path.text entity.kind)
        addPaths strict tree (position + 1) rest

namespace Analyzer

/-- Analyzes a project. -/
def ofProject (p : Project) (config : Config) : Attempt Analyzer := do
  let (index, entities) ← p.convert config
  let byPath ← addPaths config.strict .empty 0 entities
  Attempt.log (.analysisReady index.size entities.length byPath.size)
  pure ⟨index, entities, byPath⟩

/-- The entity at a position. -/
def entityAt (a : Analyzer) (suffix : String) (position : Nat) : Except LookupError Entity :=
  match a.entities[position]? with
  | some entity => .ok entity
  | none => .error (.notFound suffix)

/-- The entity whose path ends with these segments, if there is only one. -/
def get (a : Analyzer) (suffix : Pathname) : Except LookupError Entity :=
  match a.byPath.get suffix with
  | .ok position => a.entityAt suffix.text position
  | .error e => .error e

/-- What the ways to split a text have led to: positions, each once, and paths of ambiguous
matches. -/
structure Matches where
  found : List Nat := []
  candidates : List String := []

/-- Adds what one way to split a text leads to. -/
def Matches.add (m : Matches) : Except LookupError Nat → Except LookupError Matches
  | .ok position =>
    .ok (if m.found.contains position then m else { m with found := m.found ++ [position] })
  | .error (.notFound _) => .ok m
  | .error (.ambiguous _ more) => .ok { m with candidates := m.candidates ++ more }
  | .error e => .error e

/-- Adds what further ways to split a text lead to. -/
def matchesFrom (a : Analyzer) (m : Matches) : List Pathname → Except LookupError Matches
  | [] => .ok m
  | suffix :: rest =>
    match m.add (a.byPath.get suffix) with
    | .error e => .error e
    | .ok m => a.matchesFrom m rest

/-- Texts without those that equal the one before them. -/
def dropRepeats : List String → List String
  | a :: b :: rest => if a = b then dropRepeats (b :: rest) else a :: dropRepeats (b :: rest)
  | rest => rest

/-- The entity that a text names, however the text is split. -/
def resolve (a : Analyzer) (namepath : String) : Except LookupError Entity :=
  match a.matchesFrom {} (Pathname.parseAlternatives namepath) with
  | .error e => .error e
  | .ok ⟨[], []⟩ => .error (.notFound namepath)
  | .ok ⟨found, candidates⟩ =>
    let paths := found.filterMap fun position => a.entities[position]?.map (·.path.text)
    let ambiguous := LookupError.ambiguous namepath (dropRepeats (sortTexts (candidates ++ paths)))
    match found, candidates with
    | [position], [] =>
      match a.entities[position]? with
      | some entity => .ok entity
      | none => .error ambiguous
    | _, _ => .error ambiguous

end Analyzer

end DocAtlas
