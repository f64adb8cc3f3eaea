import DocAtlas.Entity.Basic
import DocAtlas.Json.Basic

/-!
Entities as JSON.

The keys of an object have a fixed order. What all entities share stands first, flat among the
entity's own keys, and a `kind` before it tells the kinds of entity apart.
-/

set_option autoImplicit false

namespace DocAtlas

/-! ## Prose -/

/-- A piece of prose as JSON. -/
def DescriptionItem.toJson : DescriptionItem → Json
  | .text s => .obj [("kind", .str "text"), ("text", .str s)]
  | .code s => .obj [("kind", .str "code"), ("text", .str s)]

/-- Prose as JSON. -/
def Description.toJson (d : Description) : Json := .arr (d.map DescriptionItem.toJson)

/-- A deprecation as JSON: the plain mark, or the reason. -/
def Deprecation.toJson : Deprecation → Json
  | .flag deprecated => .bool deprecated
  | .reason d => Description.toJson d

/-! ## Types -/

/-- A link as JSON. -/
def TypeLink.toJson : TypeLink → Json
  | .internal name path =>
    .obj [("kind", .str "internal"), ("name", .str name), ("path", .ofStrings path)]
  | .external name package sourceFileName qualifiedName =>
    .obj [("kind", .str "external"), ("name", .str name), ("package", .str package),
      ("source_file_name", .str sourceFileName), ("qualified_name", .str qualifiedName)]

/-- A token as JSON. -/
def TypeToken.toJson : TypeToken → Json
  | .text s => .str s
  | .link target => target.toJson

/-- A rendered type as JSON. -/
def TypeText.toJson (tokens : TypeText) : Json := .arr (tokens.map TypeToken.toJson)

/-! ## Parts of entities -/

/-- The entries of what all entities share. -/
def TopLevel.entries (t : TopLevel) : List (String × Json) :=
  [("name", .str t.name),
    ("path", .ofStrings t.path),
    ("filename", .str t.filename),
    ("deppath", .ofOption .str t.deppath),
    ("line", .ofOption .ofNat t.line),
    ("description", Description.toJson t.description),
    ("deprecated", t.deprecated.toJson),
    ("examples", .arr (t.examples.map Description.toJson)),
    ("exported_from", .ofOption .ofStrings t.exportedFrom)]

/-- The entries of how a member stands to its owner. -/
def MemberProperties.entries (m : MemberProperties) : List (String × Json) :=
  [("is_abstract", .bool m.isAbstract),
    ("is_optional", .bool m.isOptional),
    ("is_static", .bool m.isStatic),
    ("is_private", .bool m.isPrivate)]

/-- A parameter as JSON. -/
def Param.toJson (p : Param) : Json :=
  .obj [("name", .str p.name),
    ("description", Description.toJson p.description),
    ("has_default", .bool p.hasDefault),
    ("is_variadic", .bool p.isVariadic),
    ("type", TypeText.toJson p.type),
    ("default", .ofOption .str p.default)]

/-- A result as JSON. -/
def Return.toJson (r : Return) : Json :=
  .obj [("type", TypeText.toJson r.type), ("description", Description.toJson r.description)]

/-- A type parameter as JSON. -/
def TypeParam.toJson (p : TypeParam) : Json :=
  .obj [("name", .str p.name),
    ("extends", .ofOption TypeText.toJson p.extends_),
    ("description", Description.toJson p.description)]

/-! ## Entities -/

/-- The entries of a function. -/
def Function.entries (f : Function) : List (String × Json) :=
  f.top.entries ++ f.member.entries ++
    [("is_async", .bool f.isAsync),
      ("params", .arr (f.params.map Param.toJson)),
      ("returns", .arr (f.returns.map Return.toJson)),
      ("type_params", .arr (f.typeParams.map TypeParam.toJson))]

/-- The entries of an attribute. -/
def Attribute.entries (a : Attribute) : List (String × Json) :=
  a.top.entries ++ a.member.entries ++ [("type", TypeText.toJson a.type)]

/-- A member of a class as JSON. -/
def ClassMember.toJson : ClassMember → Json
  | .function f => .obj (("kind", .str "function") :: f.entries)
  | .attribute a => .obj (("kind", .str "attribute") :: a.entries)

/-- The entries of a class. The constructor needs no kind. -/
def Class.entries (c : Class) : List (String × Json) :=
  c.top.entries ++
    [("constructor", .ofOption (fun f => .obj f.entries) c.constructor),
      ("members", .arr (c.members.map ClassMember.toJson)),
      ("supers", .arr (c.supers.map .ofStrings)),
      ("interfaces", .arr (c.interfaces.map .ofStrings)),
      ("is_abstract", .bool c.isAbstract),
      ("type_params", .arr (c.typeParams.map TypeParam.toJson))]

/-- The entries of an interface. -/
def Interface.entries (i : Interface) : List (String × Json) :=
  i.top.entries ++
    [("members", .arr (i.members.map ClassMember.toJson)),
      ("supers", .arr (i.supers.map .ofStrings)),
      ("type_params", .arr (i.typeParams.map TypeParam.toJson))]

/-- The entries of an entity but for its kind. -/
def Entity.entries : Entity → List (String × Json)
  | .function f => f.entries
  | .classEntity c => c.entries
  | .interface i => i.entries
  | .attribute a => a.entries

/-- An entity as JSON. -/
def Entity.toJson (e : Entity) : Json := .obj (("kind", .str e.kind) :: e.entries)

/-- Entities as JSON. -/
def Entity.listToJson (entities : List Entity) : Json := .arr (entities.map Entity.toJson)

end DocAtlas
