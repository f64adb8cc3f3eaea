import DocAtlas.Conversion.Signature

/-!
Declarations as documentation entities.

A declaration is documented as at most one entity, `Scope.convert`. A class or interface also
contains the functions and attributes of its direct children, which are converted once more for
that. What a declaration leads to next is a separate function, `Declaration.followUps`.
-/

set_option autoImplicit false

namespace DocAtlas

/-- The top level of a declaration's own entity, with a comment that may be another's. -/
def Header.topLevel (h : Header) (comment : Comment) : Logged TopLevel :=
  DocAtlas.topLevel h.name h.place.path h.place.filename h.sources comment

/-! ## Accessors and members -/

/-- The type of an accessor: that of its getter, or else that of its setter's parameter. -/
def accessorType (getter setter : Option Signature) : Option TypeExpr :=
  match getter.bind (·.result) with
  | some t => some t
  | none => (setter.bind (·.parameters.head?)).map (·.type)

/-- The comment of an accessor: the first of its own, its getter's and its setter's that is not
empty. -/
def accessorComment (own : Comment) (getter setter : Option Signature) : Comment :=
  let all := own :: ((getter.map (·.comment)).toList ++ (setter.map (·.comment)).toList)
  (all.find? fun c => !c.isEmpty).getD own

/-- The type literal behind a member's type, if it can be called: its header and its signatures. -/
def callableLiteral (type : TypeExpr) : Option (Header × List Signature) :=
  match type.reflected with
  | some ⟨header, _, .typeLiteral _ (s :: rest) _⟩ => some (header, s :: rest)
  | _ => none

namespace Scope

/-- An attribute with a type. -/
def attributeOf (scope : Scope) (h : Header) (comment : Comment) (type : TypeExpr) :
    Logged Attribute := do
  let top ← h.topLevel comment
  let type ← renderType scope.index type
  pure { top := top, member := h.flags.memberProperties, type := type }

/-- A member: a function if its type can be called, else an attribute. -/
def member (scope : Scope) (h : Header) (type : TypeExpr) : Logged (Option Entity) :=
  match callableLiteral type with
  | some (literal, signatures) => do
    let sources := if literal.sources.isEmpty then h.sources else literal.sources
    let function ← scope.callable ⟨sources, [], some h.flags.memberProperties⟩ signatures
    pure (function.map Entity.function)
  | none => do
    let found ← scope.attributeOf h h.comment type
    pure (some (.attribute found))

/-! ## Gaps -/

/-- Notes a construct that has no faithful entity, which is an error if the configuration is
strict. -/
def degrade (scope : Scope) (gap : Gap) : Attempt Unit :=
  if scope.config.strict then throw (.unsupported gap) else Attempt.log (.unimplemented gap)

/-- An accessor. One without a type has no entity. -/
def accessor (scope : Scope) (h : Header) (getter setter : Option Signature) :
    Attempt (Option Entity) :=
  match accessorType getter setter with
  | none => do
    scope.degrade (.untypedAccessor h.name)
    pure none
  | some type => do
    let found ← scope.attributeOf h (accessorComment h.comment getter setter) type
    pure (some (.attribute found))

/-! ## Related types -/

/-- The path of a type that a class or interface is related to, if it is in the index. -/
def relatedType (scope : Scope) (relation : Relation) (t : TypeExpr) : Attempt (Option Pathname) :=
  match t.kind with
  | .reference r =>
    match r.targetId with
    | some id =>
      match scope.index.get? id with
      | some entry => pure (some entry.path)
      | none => do
        Attempt.log (.unresolved r.name id (.omitted relation))
        pure none
    | none =>
      if r.package.isSome || r.externalTarget.isSome then do
        Attempt.log (.foreignRelation relation r.name)
        pure none
      else do
        scope.degrade (.relatedToNothing relation r.name)
        pure none
  | kind => do
    scope.degrade (.relatedByType relation kind.tag)
    pure none

/-- The paths of the types that a class or interface is related to. -/
def relatedTypes (scope : Scope) (relation : Relation) : List TypeExpr → Attempt (List Pathname)
  | [] => pure []
  | t :: rest => do
    let here ← scope.relatedType relation t
    let more ← scope.relatedTypes relation rest
    pure (here.toList ++ more)

/-! ## Declarations -/

/-- A class from its converted children. -/
def classEntity (scope : Scope) (h : Header) (extended implemented : List TypeExpr)
    (typeParameters : List TypeParameter) (constructor : Option Function)
    (members : List ClassMember) :
    Attempt Entity := do
  let top ← h.topLevel h.comment
  let supers ← scope.relatedTypes .superclass extended
  let interfaces ← scope.relatedTypes .implementedInterface implemented
  let typeParams ← scope.typeParams typeParameters
  pure (.classEntity {
    top := top
    constructor := constructor
    members := members
    supers := supers
    interfaces := interfaces
    isAbstract := h.flags.isAbstract
    typeParams := typeParams })

/-- An interface from its converted children. -/
def interfaceEntity (scope : Scope) (h : Header) (extended : List TypeExpr)
    (typeParameters : List TypeParameter) (members : List ClassMember) : Attempt Entity := do
  let top ← h.topLevel h.comment
  let supers ← scope.relatedTypes .extendedInterface extended
  let typeParams ← scope.typeParams typeParameters
  pure (.interface { top := top, members := members, supers := supers, typeParams := typeParams })

mutual

/-- The entity that a declaration is documented as. Type parameters of an owner are `inherited` by a
callable that has none of its own. -/
def convert (scope : Scope) (inherited : List TypeParameter) : Declaration → Attempt (Option Entity)
  | ⟨header, children, .classLike kind extended implemented typeParameters⟩ => do
    let (constructor, members) ← scope.classMembers header.name typeParameters none children
    match kind with
    | .classDecl =>
      some <$> scope.classEntity header extended implemented typeParameters constructor members
    | .interface => some <$> scope.interfaceEntity header extended typeParameters members
  | ⟨header, _, .accessor getter setter⟩ => scope.accessor header getter setter
  | ⟨header, _, .callable _ signatures⟩ => do
    let function ← scope.callable ⟨header.sources, inherited, none⟩ signatures
    pure (function.map Entity.function)
  | ⟨header, _, .member _ type⟩ => scope.member header type
  | ⟨header, _, .typeLiteral _ signatures _⟩ => do
    let function ← scope.callable ⟨header.sources, inherited, none⟩ signatures
    pure (function.map Entity.function)
  | ⟨_, _, .scope _⟩ => pure none
termination_by structural d => d

/-- The constructor and the members among the children of a class, given the constructor found
before them. Only the first constructor counts. -/
def classMembers (scope : Scope) (className : String) (typeParameters : List TypeParameter)
    (constructor : Option Function) :
    List Declaration → Attempt (Option Function × List ClassMember)
  | [] => pure (constructor, [])
  | d :: rest =>
    match d.detail with
    | .callable .constructor signatures => do
      if constructor.isSome then
        Attempt.log (.extraConstructor className)
        scope.classMembers className typeParameters constructor rest
      else
        let found ← scope.callable ⟨d.header.sources, typeParameters, none⟩ signatures
        scope.classMembers className typeParameters found rest
    | _ => do
      let entity ← scope.convert [] d
      match entity with
      | none => scope.classMembers className typeParameters constructor rest
      | some (.function f) =>
        let (found, members) ← scope.classMembers className typeParameters constructor rest
        pure (found, .function f :: members)
      | some (.attribute a) =>
        let (found, members) ← scope.classMembers className typeParameters constructor rest
        pure (found, .attribute a :: members)
      | some other =>
        Attempt.log (.notAMember className other.kind)
        scope.classMembers className typeParameters constructor rest
termination_by structural ds => ds

end

end Scope

end DocAtlas
