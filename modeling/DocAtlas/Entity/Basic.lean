import DocAtlas.Entity.Description
import DocAtlas.Path.Pathname

/-!
Documentation entities: functions, classes, interfaces and attributes, each with where it is
declared and what its author wrote about it.

Rendered types are lists of tokens, so that a page can link the names in them.
-/

set_option autoImplicit false

namespace DocAtlas

/-! ## Rendered types -/

/-- A link from a rendered type to what a name in it stands for. -/
inductive TypeLink where
  /-- An entity of the analyzed tree. -/
  | internal (name : String) (path : Pathname)
  /-- A declaration of another package. -/
  | external (name package sourceFileName qualifiedName : String)
  deriving DecidableEq, Repr

/-- The name that a link shows. -/
def TypeLink.name : TypeLink → String
  | .internal name _ => name
  | .external name _ _ _ => name

/-- A piece of a rendered type. -/
inductive TypeToken where
  | text (s : String)
  | link (target : TypeLink)
  deriving DecidableEq, Repr

/-- What a reader sees of a token. -/
def TypeToken.shown : TypeToken → String
  | .text s => s
  | .link target => target.name

/-- A rendered type. -/
abbrev TypeText : Type := List TypeToken

/-- What a reader sees of a rendered type. -/
def TypeText.plain (tokens : TypeText) : String := String.join (tokens.map TypeToken.shown)

/-! ## Parts of entities -/

/-- What every entity has. -/
structure TopLevel where
  name : String
  path : Pathname
  /-- The last part of the source file's name. -/
  filename : String
  /-- The source file as it was reported. -/
  deppath : Option String
  /-- The number of the line in that file. -/
  lineNumber : Option UInt32
  description : Description
  deprecated : Deprecation
  examples : List Description
  /-- The segments of the source file. -/
  exportedFrom : Option Pathname
  deriving DecidableEq, Repr

/-- The line of the declaration, if it is known. -/
def TopLevel.line (t : TopLevel) : Option Nat := t.lineNumber.map UInt32.toNat

/-- How a member stands to its owner. -/
structure MemberProperties where
  isAbstract : Bool := false
  isOptional : Bool := false
  isStatic : Bool := false
  isPrivate : Bool := false
  deriving DecidableEq, Repr

/-- A documented parameter. -/
structure Param where
  name : String
  description : Description
  hasDefault : Bool
  isVariadic : Bool
  type : TypeText
  default : Option String
  deriving DecidableEq, Repr

/-- A documented result. -/
structure Return where
  type : TypeText
  description : Description
  deriving DecidableEq, Repr

/-- A documented type parameter. -/
structure TypeParam where
  name : String
  extends_ : Option TypeText
  description : Description
  deriving DecidableEq, Repr

/-! ## Entities -/

/-- A function, method or constructor. It counts as asynchronous when its declared result names one
of the configured wrappers, which is a guess from the text. -/
structure Function where
  top : TopLevel
  member : MemberProperties
  isAsync : Bool
  params : List Param
  returns : List Return
  typeParams : List TypeParam
  deriving DecidableEq, Repr

/-- A property, variable or accessor. -/
structure Attribute where
  top : TopLevel
  member : MemberProperties
  type : TypeText
  deriving DecidableEq, Repr

/-- A member of a class or interface. -/
inductive ClassMember where
  | function (f : Function)
  | attribute (a : Attribute)
  deriving DecidableEq, Repr

/-- What a member shares with all entities. -/
def ClassMember.top : ClassMember → TopLevel
  | .function f => f.top
  | .attribute a => a.top

/-- A class. -/
structure Class where
  top : TopLevel
  constructor : Option Function
  members : List ClassMember
  supers : List Pathname
  interfaces : List Pathname
  isAbstract : Bool
  typeParams : List TypeParam
  deriving DecidableEq, Repr

/-- An interface. -/
structure Interface where
  top : TopLevel
  members : List ClassMember
  supers : List Pathname
  typeParams : List TypeParam
  deriving DecidableEq, Repr

/-- A documented entity. -/
inductive Entity where
  | function (f : Function)
  | classEntity (c : Class)
  | interface (i : Interface)
  | attribute (a : Attribute)
  deriving DecidableEq, Repr

namespace Entity

/-- What all entities share. -/
def top : Entity → TopLevel
  | .function f => f.top
  | .classEntity c => c.top
  | .interface i => i.top
  | .attribute a => a.top

/-- The entity's name. -/
def name (e : Entity) : String := e.top.name

/-- The entity's path. -/
def path (e : Entity) : Pathname := e.top.path

/-- The word for the kind of entity. -/
def kind : Entity → String
  | .function _ => "function"
  | .classEntity _ => "class"
  | .interface _ => "interface"
  | .attribute _ => "attribute"

/-- The members of a class or interface. -/
def members : Entity → List ClassMember
  | .function _ => []
  | .classEntity c => c.members
  | .interface i => i.members
  | .attribute _ => []

end Entity

end DocAtlas
