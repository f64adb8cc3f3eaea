import DocAtlas.Json.Basic

/-!
The JSON schema of entities.

Every type of the entities is a definition of its own, and the schema is that of a list of entities.
The properties of an object are listed by name, the required ones in the order of the object's keys.
-/

set_option autoImplicit false

namespace DocAtlas

namespace Schema

/-! ## Keywords -/

/-- Values of one type. -/
def ofType (name : String) : Json := .obj [("type", .str name)]

/-- Any text. -/
def text : Json := ofType "string"

/-- Truth values. -/
def truth : Json := ofType "boolean"

/-- One text. -/
def constant (value : String) : Json := .obj [("type", .str "string"), ("const", .str value)]

/-- Lists. -/
def listOf (item : Json) : Json := .obj [("type", .str "array"), ("items", item)]

/-- The definition of a name. -/
def named (name : String) : Json := .obj [("$ref", .str ("#/$defs/" ++ name))]

/-- The type of a name, or `null`. -/
def orNull (name : String) : String × Json := ("type", .ofStrings [name, "null"])

/-- What fits any of some schemas. -/
def anyOf (choices : List Json) : Json := .obj [("anyOf", .arr choices)]

/-- What fits exactly one of some schemas. -/
def oneOf (choices : List Json) : Json := .obj [("oneOf", .arr choices)]

/-- The schema with a description. -/
def described (description : String) : Json → Json
  | .obj keywords => .obj (("description", .str description) :: keywords)
  | other => other

/-! ## Objects -/

/-- A property of an object. -/
structure Property where
  name : String
  schema : Json
  isRequired : Bool

/-- A property that an object must have. -/
def must (name : String) (schema : Json) : Property := ⟨name, schema, true⟩

/-- A property that an object may have. -/
def may (name : String) (schema : Json) : Property := ⟨name, schema, false⟩

/-- Objects with these properties. -/
def object (properties : List Property) : Json :=
  .obj [("type", .str "object"),
    ("properties", .ofEntries (properties.map fun p => (p.name, p.schema))),
    ("required", .ofStrings ((properties.filter (·.isRequired)).map (·.name)))]

/-- The objects of a definition, with their kind. -/
def ofKind (kind name : String) : Json :=
  .obj [("type", .str "object"),
    ("properties", .obj [("kind", constant kind)]),
    ("$ref", .str ("#/$defs/" ++ name)),
    ("required", .ofStrings ["kind"])]

/-! ## Definitions -/

/-- Prose. -/
def description : Json := listOf (named "DescriptionItem")

/-- Rendered types. -/
def typeText : Json := listOf (named "TypeToken")

/-- Lists of paths. -/
def paths : Json := listOf (named "Pathname")

/-- Lists of type parameters. -/
def typeParams : Json := listOf (named "TypeParam")

/-- A piece of prose of a kind. -/
def prose (kind : String) : Json := object [must "kind" (constant kind), must "text" text]

/-- What all entities share. -/
def topLevel : List Property := [
  must "name" (described "Short name, as written in the source" text),
  must "path" (named "Pathname"),
  must "filename" (described "Basename of the defining source file" text),
  may "deppath"
    (described "Source file name as reported by the analysis tool" (.obj [orNull "string"])),
  may "line" (.obj [orNull "integer", ("format", .str "uint32"), ("minimum", .num (.int 0))]),
  must "description" description,
  must "deprecated" (named "Deprecation"),
  must "examples" (listOf description),
  may "exported_from" (described "File-path pathname of the module the entity is exported from"
    (anyOf [named "Pathname", ofType "null"]))]

/-- How a member stands to its owner. -/
def member : List Property := [
  must "is_abstract" truth,
  must "is_optional" truth,
  must "is_static" truth,
  must "is_private" truth]

/-- Entities with these properties beyond what all entities share. -/
def entity (own : List Property) : Json :=
  described "Properties every documented entity shares." (object (topLevel ++ own))

/-- Attributes. -/
def attributeOf : Json := entity (member ++ [must "type" typeText])

/-- Classes. -/
def classOf : Json := entity [
  may "constructor" (anyOf [named "Function", ofType "null"]),
  must "members" (listOf (named "ClassMember")),
  must "supers" paths,
  must "interfaces" paths,
  must "is_abstract" truth,
  must "type_params" typeParams]

/-- Functions. -/
def function : Json := entity (member ++ [
  must "is_async"
    (described ("Set when the declared return type names a promise wrapper. This is a\n"
    ++ "syntactic guess, not a statement about the implementation.") truth),
  must "params" (listOf (named "Param")),
  must "returns" (listOf (named "Return")),
  must "type_params" typeParams])

/-- Interfaces. -/
def interface : Json := entity [
  must "members" (listOf (named "ClassMember")),
  must "supers" paths,
  must "type_params" typeParams]

/-- Parameters. -/
def param : Json := object [
  must "name" text,
  must "description" description,
  must "has_default" truth,
  must "is_variadic" truth,
  must "type" typeText,
  may "default" (.obj [orNull "string"])]

/-- Paths. -/
def pathname : Json := described
  ("Ordered path segments addressing one documented entity.\n\n"
    ++ "Every segment but the last keeps the punctuation that joins it to the next\n"
    ++ "one: `/` after directories, `.` for ordinary containment and `#` for\n"
    ++ "instance members of a class. Concatenating the segments therefore yields\n"
    ++ "the familiar namepath, e.g. `./dir/file.Class#method`.")
  (listOf text)

/-- Type parameters. -/
def typeParam : Json := object [
  must "name" text,
  may "extends" (.obj [orNull "array", ("items", named "TypeToken")]),
  must "description" description]

/-- Links to entities of the analyzed tree. -/
def internalLink : Json := described "Points at an entity inside the analyzed tree." (object [
  must "kind" (constant "internal"),
  must "name" text,
  must "path" (named "Pathname")])

/-- Links to declarations of other packages. -/
def externalLink : Json := described "Points at a declaration shipped by another package." (object [
  must "kind" (constant "external"),
  must "name" text,
  must "package" text,
  must "source_file_name" text,
  must "qualified_name" text])

/-- All definitions. -/
def definitions : List (String × Json) := [
  ("Attribute", attributeOf),
  ("Class", classOf),
  ("ClassMember", oneOf [ofKind "function" "Function", ofKind "attribute" "Attribute"]),
  ("Deprecation",
    described "Deprecation marker: either a plain flag or the reason the author gave."
      (anyOf [truth, description])),
  ("DescriptionItem", oneOf [prose "text", prose "code"]),
  ("Entity",
    described "A converted, documentable entity."
      (oneOf [ofKind "function" "Function", ofKind "class" "Class", ofKind "interface" "Interface",
        ofKind "attribute" "Attribute"])),
  ("Function", function),
  ("Interface", interface),
  ("Param", param),
  ("Pathname", pathname),
  ("Return", object [must "type" typeText, must "description" description]),
  ("TypeParam", typeParam),
  ("TypeToken",
    described "One renderable unit of a type expression." (anyOf [text, named "TypeXRef"])),
  ("TypeXRef",
    described "A cross reference from a rendered type to a named declaration."
      (oneOf [internalLink, externalLink]))]

/-- The schema of a list of entities. -/
def entities : Json :=
  .obj [("$schema", .str "https://json-schema.org/draft/2020-12/schema"),
    ("title", .str "Array_of_Entity"),
    ("type", .str "array"),
    ("items", named "Entity"),
    ("$defs", .obj definitions)]

end Schema

end DocAtlas
