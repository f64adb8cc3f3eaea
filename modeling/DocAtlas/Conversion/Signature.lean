import DocAtlas.Failure
import DocAtlas.Text.Blank
import DocAtlas.TypeText.Basic

/-!
Signatures as documented functions.

A callable is documented through its first signature. Its parameters, its result and its type
parameters are rendered against the index; a parameter that a `@destructure` tag names is documented
by the properties of its object type.
-/

set_option autoImplicit false

namespace DocAtlas

/-- The choices for a conversion. -/
structure Config where
  /-- The directory that module files are seen from. -/
  baseDir : String := "."
  /-- The names of types that make a function asynchronous when they are its result. -/
  asyncWrappers : List String := ["Promise"]
  /-- Whether what cannot be converted faithfully is an error. -/
  strict : Bool := false
  deriving DecidableEq, Repr

/-- The configuration with other wrapper names; no names at all keep those that it has. -/
def Config.withAsyncWrappers (c : Config) (names : List String) : Config :=
  if names.isEmpty then c else { c with asyncWrappers := names }

/-- What a conversion looks things up in. -/
structure Scope where
  index : Index
  config : Config

/-! ## What all entities share -/

/-- The top level of an entity. Its file is known if the name of the file is not empty. -/
def topLevel (name : String) (path : Pathname) (filename : String) (sources : List Source)
    (comment : Comment) : Logged TopLevel := do
  let deprecated ← comment.deprecation
  let known := !filename.isEmpty
  pure {
    name := name
    path := path
    filename := FilePath.basename filename
    deppath := if known then some filename else none
    lineNumber := sources.head?.map (·.line)
    description := comment.description
    deprecated := deprecated
    examples := comment.tagList "example"
    exportedFrom := if known then some (FilePath.segments filename) else none }

/-! ## Parameters -/

/-- A parameter as it is going to be documented. -/
structure ParamSource where
  name : String
  type : TypeExpr
  comment : Comment
  defaultValue : Option String
  isRest : Bool

/-- A parameter of a signature, documented as it is. -/
def ParamSource.ofParameter (p : Parameter) : ParamSource :=
  ⟨p.name, p.type, p.comment, p.defaultValue, p.flags.isRest⟩

/-- The parameters that the members of an object type stand for; members that are not properties are
left out. -/
def propertyParams (outer : String) : List Declaration → Logged (List ParamSource)
  | [] => pure []
  | d :: rest =>
    match d.detail with
    | .member _ type => do
      let params ← propertyParams outer rest
      pure (⟨outer ++ "." ++ d.name, type, d.header.comment, none, false⟩ :: params)
    | _ => do
      Logged.log (.notAProperty outer d.kind.name)
      propertyParams outer rest

/-- The parameters that a parameter is documented by, if it is to be destructured. -/
def destructured (p : Parameter) : Logged (List ParamSource) :=
  match p.type.reflected with
  | some ⟨_, children, .typeLiteral _ _ _⟩ => propertyParams p.name children
  | _ => do
    Logged.log (.notDestructurable p.name)
    pure [.ofParameter p]

/-- The parameters that parameters are documented by; those with one of the given names are
destructured. -/
def paramSources (targets : List String) : List Parameter → Logged (List ParamSource)
  | [] => pure []
  | p :: rest => do
    let here ← if targets.contains p.name then destructured p else pure [.ofParameter p]
    let more ← paramSources targets rest
    pure (here ++ more)

namespace Scope

/-- A documented parameter. -/
def param (scope : Scope) (p : ParamSource) : Logged Param := do
  let type ← renderType scope.index p.type
  pure {
    name := p.name
    description := p.comment.description
    hasDefault := p.defaultValue.isSome
    isVariadic := p.isRest
    type := type
    default := p.defaultValue }

/-- Documented parameters, in their order. -/
def params (scope : Scope) : List ParamSource → Logged (List Param)
  | [] => pure []
  | p :: rest => do
    let here ← scope.param p
    let more ← scope.params rest
    pure (here :: more)

/-- A documented type parameter. -/
def typeParam (scope : Scope) (p : TypeParameter) : Logged TypeParam := do
  let bound ← match p.constraint with
    | none => pure none
    | some t => some <$> renderType scope.index t
  pure { name := p.name, extends_ := bound, description := p.comment.description }

/-- Documented type parameters, in their order. -/
def typeParams (scope : Scope) : List TypeParameter → Logged (List TypeParam)
  | [] => pure []
  | p :: rest => do
    let here ← scope.typeParam p
    let more ← scope.typeParams rest
    pure (here :: more)

/-! ## Results -/

/-- The documented results: none for a constructor and for `void`. -/
def returns (scope : Scope) (s : Signature) : Logged (List Return) :=
  if s.kind = .constructor then pure []
  else
    match s.result with
    | none => pure []
    | some t =>
      if t.isVoid then pure []
      else do
        let type ← renderType scope.index t
        let description ← s.comment.tagOne "returns"
        pure [{ type := type, description := description.getD [] }]

/-- Whether the declared result is one of the wrapper names. -/
def isAsync (scope : Scope) (s : Signature) : Bool :=
  match s.result with
  | some ⟨.reference r, _⟩ => scope.config.asyncWrappers.contains r.name
  | _ => false

end Scope

/-! ## Signatures -/

/-- The name under which a signature is documented. A name in brackets is that of a symbol; the
character in it looks like a dot without being one. -/
def symbolName (name : String) : String :=
  match name.toList with
  | '[' :: rest => "[Symbol․" ++ String.ofList rest
  | _ => name

/-- What a signature takes from the declaration that it belongs to. -/
structure SignatureOwner where
  /-- The sources of the declaration, which stand in for those of the signature. -/
  sources : List Source
  /-- The type parameters of a signature that has none of its own. -/
  typeParameters : List TypeParameter
  /-- How the declaration stands to its owner, if not as the signature says. -/
  member : Option MemberProperties

namespace Scope

/-- The function that a signature is documented as. An inherited signature without a comment of its
own is not documented again. -/
def signature (scope : Scope) (owner : SignatureOwner) (s : Signature) : Logged (Option Function) :=
  if s.inheritedFrom.isSome && s.comment.isEmpty then do
    Logged.log (.inheritedSkipped s.name)
    pure none
  else do
    let (path, stripped) := Pathname.stripAnonymous s.place.path
    let name := stripped.getD (symbolName s.name)
    let targets := Text.words ((s.comment.tagText "destructure").getD "")
    let sources ← paramSources targets s.parameters
    let params ← scope.params sources
    let top ← topLevel name path s.place.filename owner.sources s.comment
    let returns ← scope.returns s
    let typeParams ← scope.typeParams
      (if s.typeParameters.isEmpty then owner.typeParameters else s.typeParameters)
    pure (some {
      top := top
      member := owner.member.getD s.owner
      isAsync := scope.isAsync s
      params := params
      returns := returns
      typeParams := typeParams })

/-- The function that a callable is documented as: its first signature. -/
def callable (scope : Scope) (owner : SignatureOwner) : List Signature → Logged (Option Function)
  | [] => pure none
  | s :: _ => scope.signature owner s

end Scope

end DocAtlas
