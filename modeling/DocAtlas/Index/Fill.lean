import DocAtlas.Index.Basic

/-!
Handing the visits of a walk back to the slots of a project.

Every slot takes the next visit and passes the rest on, first to what is directly below it and then
to what comes after it, which is the order of the walk. Nothing but places and the owners of
signatures is written.
-/

set_option autoImplicit false

namespace DocAtlas

/-- The place of the next visit, and the visits behind it. -/
def nextPlace (old : Place) : List Visit → Place × List Visit
  | [] => (old, [])
  | visit :: rest => (visit.place, rest)

/-- The owner of the next visit. -/
def nextOwner (old : MemberProperties) : List Visit → MemberProperties
  | [] => old
  | visit :: _ => visit.owner

/-- Fills in a type parameter. -/
def TypeParameter.fill (p : TypeParameter) (visits : List Visit) : TypeParameter × List Visit :=
  let (place, visits) := nextPlace p.place visits
  ({ p with place := place }, visits)

/-- Fills in type parameters one after the other. -/
def fillTypeParameters : List TypeParameter → List Visit → List TypeParameter × List Visit
  | [], visits => ([], visits)
  | p :: rest, visits =>
    let (p, visits) := p.fill visits
    let (rest, visits) := fillTypeParameters rest visits
    (p :: rest, visits)

mutual

/-- Fills in a declaration and what is below it. -/
def fillDeclaration : Declaration → List Visit → Declaration × List Visit
  | ⟨header, children, detail⟩, visits =>
    let (place, visits) := nextPlace header.place visits
    let (children, visits) := fillDeclarations children visits
    let (detail, visits) := fillDetail detail visits
    (⟨{ header with place := place }, children, detail⟩, visits)
termination_by structural d => d

/-- Fills in declarations one after the other. -/
def fillDeclarations : List Declaration → List Visit → List Declaration × List Visit
  | [], visits => ([], visits)
  | d :: rest, visits =>
    let (d, visits) := fillDeclaration d visits
    let (rest, visits) := fillDeclarations rest visits
    (d :: rest, visits)
termination_by structural ds => ds

/-- Fills in what a detail leads to. -/
def fillDetail : Detail → List Visit → Detail × List Visit
  | .accessor getter setter, visits =>
    let (getter, visits) := fillOption getter visits
    let (setter, visits) := fillOption setter visits
    (.accessor getter setter, visits)
  | .classLike kind extended implemented typeParameters, visits =>
    let (typeParameters, visits) := fillTypeParameters typeParameters visits
    (.classLike kind extended implemented typeParameters, visits)
  | .callable kind signatures, visits =>
    let (signatures, visits) := fillSignatures signatures visits
    (.callable kind signatures, visits)
  | .member kind type, visits =>
    let (type, visits) := fillType type visits
    (.member kind type, visits)
  | .typeLiteral variant signatures indexer, visits =>
    let (signatures, visits) := fillSignatures signatures visits
    let (indexer, visits) := fillOption indexer visits
    (.typeLiteral variant signatures indexer, visits)
  | .scope kind, visits => (.scope kind, visits)
termination_by structural d => d

/-- Fills in a signature and what is below it. -/
def fillSignature : Signature → List Visit → Signature × List Visit
  | ⟨id, kind, name, sources, flags, comment, typeParameters, parameters, result,
    inheritedFrom, place, owner⟩, visits =>
    let owner := nextOwner owner visits
    let (place, visits) := nextPlace place visits
    let (parameters, visits) := fillParameters parameters visits
    let (typeParameters, visits) := fillTypeParameters typeParameters visits
    (⟨id, kind, name, sources, flags, comment, typeParameters, parameters, result,
      inheritedFrom, place, owner⟩, visits)
termination_by structural s => s

/-- Fills in signatures one after the other. -/
def fillSignatures : List Signature → List Visit → List Signature × List Visit
  | [], visits => ([], visits)
  | s :: rest, visits =>
    let (s, visits) := fillSignature s visits
    let (rest, visits) := fillSignatures rest visits
    (s :: rest, visits)
termination_by structural ss => ss

/-- Fills in a signature, if there is one. -/
def fillOption : Option Signature → List Visit → Option Signature × List Visit
  | none, visits => (none, visits)
  | some s, visits =>
    let (s, visits) := fillSignature s visits
    (some s, visits)
termination_by structural s => s

/-- Fills in a parameter and what is below it. -/
def fillParameter : Parameter → List Visit → Parameter × List Visit
  | ⟨id, name, type, comment, defaultValue, flags, place⟩, visits =>
    let (place, visits) := nextPlace place visits
    let (type, visits) := fillType type visits
    (⟨id, name, type, comment, defaultValue, flags, place⟩, visits)
termination_by structural p => p

/-- Fills in parameters one after the other. -/
def fillParameters : List Parameter → List Visit → List Parameter × List Visit
  | [], visits => ([], visits)
  | p :: rest, visits =>
    let (p, visits) := fillParameter p visits
    let (rest, visits) := fillParameters rest visits
    (p :: rest, visits)
termination_by structural ps => ps

/-- Fills in the declaration behind a type. -/
def fillType : TypeExpr → List Visit → TypeExpr × List Visit
  | ⟨kind, arguments⟩, visits =>
    let (kind, visits) := fillKind kind visits
    (⟨kind, arguments⟩, visits)
termination_by structural t => t

/-- Fills in the declaration behind a kind of type. -/
def fillKind : TypeKind → List Visit → TypeKind × List Visit
  | .reflection declaration, visits =>
    let (declaration, visits) := fillDeclaration declaration visits
    (.reflection declaration, visits)
  | .intrinsic name, visits => (.intrinsic name, visits)
  | .reference target, visits => (.reference target, visits)
  | .array element, visits => (.array element, visits)
  | .tuple elements, visits => (.tuple elements, visits)
  | .union types, visits => (.union types, visits)
  | .intersection types, visits => (.intersection types, visits)
  | .operator name target, visits => (.operator name target, visits)
  | .literal value, visits => (.literal value, visits)
  | .predicate name asserts target, visits => (.predicate name asserts target, visits)
  | .parameter name, visits => (.parameter name, visits)
  | .unknown name, visits => (.unknown name, visits)
  | .unmodelled kind, visits => (.unmodelled kind, visits)
termination_by structural k => k

end

/-- The project with the places of its slots filled in. -/
def Project.placed (p : Project) (baseDir : String) : Project :=
  { p with children := (fillDeclarations p.children (p.visits baseDir)).1 }

/-- Indexes a project: the project with its places, and the index. -/
def Project.populate (p : Project) (baseDir : String) : Logged (Project × Index) := do
  let index ← p.index baseDir
  pure (p.placed baseDir, index)

end DocAtlas
