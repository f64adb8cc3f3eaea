import DocAtlas.Document.Comment
import DocAtlas.Path.Placement
import DocAtlas.Json.Basic

/-!
The document of a documentation generator: a project of declarations.

Declarations, signatures, parameters and type expressions contain each other, so they are one family
of types. What all declarations share is their `Header`; what a declaration of some kind has beyond
that is its `Detail`. Places are not part of the document: indexing fills them in.
-/

set_option autoImplicit false

namespace DocAtlas

/-! ## Kinds -/

/-- The kind of a class-like declaration. -/
inductive ClassKind where
  | classDecl
  | interface
  deriving DecidableEq, Repr

/-- The kind of a declaration whose substance is in its signatures. -/
inductive CallableKind where
  | constructor
  | method
  | function
  deriving DecidableEq, Repr

/-- The kind of a declaration that has a type. -/
inductive MemberKind where
  | property
  | variableDecl
  deriving DecidableEq, Repr

/-- The kind of a declaration that is documented only through what it contains. -/
inductive ScopeKind where
  | moduleDecl
  | namespaceDecl
  | enumeration
  | enumerationMember
  | typeAlias
  | reference
  deriving DecidableEq, Repr

/-- The kind of a declaration. -/
inductive DeclarationKind where
  | accessor
  | classLike (kind : ClassKind)
  | callable (kind : CallableKind)
  | member (kind : MemberKind)
  | typeLiteral
  | scope (kind : ScopeKind)
  deriving DecidableEq, Repr

/-- The name of a kind. -/
def DeclarationKind.name : DeclarationKind → String
  | .accessor => "Accessor"
  | .classLike .classDecl => "Class"
  | .classLike .interface => "Interface"
  | .callable .constructor => "Constructor"
  | .callable .method => "Method"
  | .callable .function => "Function"
  | .member .property => "Property"
  | .member .variableDecl => "Variable"
  | .typeLiteral => "Type literal"
  | .scope .moduleDecl => "Module"
  | .scope .namespaceDecl => "Namespace"
  | .scope .enumeration => "Enumeration"
  | .scope .enumerationMember => "Enumeration Member"
  | .scope .typeAlias => "Type alias"
  | .scope .reference => "Reference"

/-- The kind of a signature. -/
inductive SignatureKind where
  | constructor
  | call
  | getter
  | setter
  | indexer
  deriving DecidableEq, Repr

/-- The name of a kind. -/
def SignatureKind.name : SignatureKind → String
  | .constructor => "Constructor signature"
  | .call => "Call signature"
  | .getter => "Get signature"
  | .setter => "Set signature"
  | .indexer => "Index signature"

/-- A kind of type expression that is known but not looked into. -/
inductive UnmodelledKind where
  | indexedAccess
  | conditional
  | query
  | mapped
  | templateLiteral
  | inferred
  | optional
  | rest
  | namedTupleMember
  deriving DecidableEq, Repr

/-- The name of a kind. -/
def UnmodelledKind.name : UnmodelledKind → String
  | .indexedAccess => "indexedAccess"
  | .conditional => "conditional"
  | .query => "query"
  | .mapped => "mapped"
  | .templateLiteral => "template-literal"
  | .inferred => "inferred"
  | .optional => "optional"
  | .rest => "rest"
  | .namedTupleMember => "named-tuple-member"

/-! ## References -/

/-- What a reference points at: a declaration of this document, or one of another package. -/
inductive RefTarget where
  | id (id : Int)
  | external (sourceFileName qualifiedName : String)
  deriving DecidableEq, Repr

/-- A type given by name. Its target's id may also stand in `id`. -/
structure Reference where
  name : String
  target : Option RefTarget := none
  id : Option Int := none
  package : Option String := none
  isTypeParameter : Bool := false
  deriving DecidableEq, Repr

namespace Reference

/-- The id of the declaration that is meant. Ids that are not positive point at nothing. -/
def targetId (r : Reference) : Option Int :=
  (match r.target with
  | some (.id id) => some id
  | _ => r.id).filter (0 < ·)

/-- The declaration of another package that is meant: its source file and its qualified name. -/
def externalTarget (r : Reference) : Option (String × String) :=
  match r.target with
  | some (.external sourceFileName qualifiedName) => some (sourceFileName, qualifiedName)
  | _ => none

end Reference

/-! ## Declarations -/

/-- What all declarations share. -/
structure Header where
  id : Option Int := none
  name : String := ""
  originalName : Option String := none
  sources : List Source := []
  flags : Flags := {}
  comment : Comment := {}
  place : Place := default
  deriving DecidableEq, Repr

/-- Whether the first source lies outside the analyzed tree. -/
def Header.isExternal (h : Header) : Bool :=
  match h.sources with
  | [] => false
  | source :: _ => source.isExternal

mutual

/-- A type expression; arguments may follow any kind of it. -/
structure TypeExpr where
  kind : TypeKind
  arguments : List TypeExpr

/-- What a type expression is apart from its arguments. -/
inductive TypeKind where
  | intrinsic (name : String)
  | reference (target : Reference)
  | array (element : TypeExpr)
  | tuple (elements : List TypeExpr)
  | union (types : List TypeExpr)
  | intersection (types : List TypeExpr)
  | operator (name : String) (target : TypeExpr)
  | literal (value : Json)
  | predicate (name : String) (asserts : Bool) (target : Option TypeExpr)
  | reflection (declaration : Declaration)
  | parameter (name : String)
  | unknown (name : String)
  | unmodelled (kind : UnmodelledKind)

/-- A type parameter. -/
structure TypeParameter where
  id : Option Int
  name : String
  constraint : Option TypeExpr
  comment : Comment
  place : Place

/-- A parameter of a signature. -/
structure Parameter where
  id : Option Int
  name : String
  type : TypeExpr
  comment : Comment
  defaultValue : Option String
  flags : Flags
  place : Place

/-- A signature. `owner` is how the declaration that it belongs to stands to that one's owner, which
indexing fills in. -/
structure Signature where
  id : Option Int
  kind : SignatureKind
  name : String
  sources : List Source
  flags : Flags
  comment : Comment
  typeParameters : List TypeParameter
  parameters : List Parameter
  result : Option TypeExpr
  inheritedFrom : Option Json
  place : Place
  owner : MemberProperties

/-- What a declaration has beyond its header and its children. -/
inductive Detail where
  | accessor (getter setter : Option Signature)
  | classLike (kind : ClassKind) (extended implemented : List TypeExpr)
      (typeParameters : List TypeParameter)
  | callable (kind : CallableKind) (signatures : List Signature)
  | member (kind : MemberKind) (type : TypeExpr)
  | typeLiteral (variant : Option String) (signatures : List Signature) (indexer : Option Signature)
  | scope (kind : ScopeKind)

/-- A declaration. -/
structure Declaration where
  header : Header
  children : List Declaration
  detail : Detail

end

instance : Inhabited TypeExpr := ⟨⟨.unknown "", []⟩⟩

/-- The root of a document. -/
structure Project where
  id : Option Int := none
  name : Option String := none
  children : List Declaration := []
  flags : Flags := {}

/-! ## Views -/

namespace TypeKind

/-- The name of a kind of type expression. -/
def tag : TypeKind → String
  | .intrinsic _ => "intrinsic"
  | .reference _ => "reference"
  | .array _ => "array"
  | .tuple _ => "tuple"
  | .union _ => "union"
  | .intersection _ => "intersection"
  | .operator _ _ => "typeOperator"
  | .literal _ => "literal"
  | .predicate _ _ _ => "predicate"
  | .reflection _ => "reflection"
  | .parameter _ => "typeParameter"
  | .unknown _ => "unknown"
  | .unmodelled kind => kind.name

end TypeKind

namespace TypeExpr

/-- Whether it is the type `void`. -/
def isVoid (t : TypeExpr) : Bool :=
  match t.kind with
  | .intrinsic name => name == "void"
  | _ => false

/-- The declaration behind a type without a name. -/
def reflected (t : TypeExpr) : Option Declaration :=
  match t.kind with
  | .reflection declaration => some declaration
  | _ => none

end TypeExpr

/-- The kind of declaration that a detail belongs to. -/
def Detail.kind : Detail → DeclarationKind
  | .accessor _ _ => .accessor
  | .classLike kind _ _ _ => .classLike kind
  | .callable kind _ => .callable kind
  | .member kind _ => .member kind
  | .typeLiteral _ _ _ => .typeLiteral
  | .scope kind => .scope kind

namespace Declaration

/-- The declaration's kind. -/
def kind (d : Declaration) : DeclarationKind := d.detail.kind

/-- The declaration's name. -/
def name (d : Declaration) : String := d.header.name

/-- Whether it is a module. -/
def isModule (d : Declaration) : Bool := d.kind == .scope .moduleDecl

/-- Whether it is a constructor. -/
def isConstructor (d : Declaration) : Bool := d.kind == .callable .constructor

/-- Whether it was declared outside the analyzed tree. -/
def isExternal (d : Declaration) : Bool := d.header.isExternal

end Declaration

end DocAtlas
