import DocAtlas.Decode.Union
import DocAtlas.Entity.Basic

/-!
Entities from JSON.

An entity is spread flat over one object: its own fields are read first, then what all entities
share, then how a member stands to its owner. So a fault in the entity's own fields is reported
before one in what it shares.
-/

set_option autoImplicit false

namespace DocAtlas

open Reader

/-! ## Prose -/

/-- The kinds of prose. -/
def proseKinds : Variants (String → DescriptionItem) where
  cases := [(["text"], .text), (["code"], .code)]

/-- A piece of prose: its kind and its text, as an object or as two items. The kind is read before
the text, wherever it stands. -/
def readDescriptionItem : Reader DescriptionItem
  | o, .obj entries =>
    match entries.lookup "kind" with
    | none => .error (.missingField "kind")
    | some kind =>
      match proseKinds.readPlain o kind with
      | .error e => .error e
      | .ok make =>
        match entries.lookup "text" with
        | none => .error (.missingField "text")
        | some text => (string o text).map make
  | _, .arr [] => .error (.invalidLength 0 (.pair "DescriptionItem"))
  | o, .arr (kind :: rest) =>
    match proseKinds.tag o kind with
    | .error e => .error e
    | .ok make =>
      match rest with
      | [] => .error (.invalidLength 1 (.pair "DescriptionItem"))
      | text :: extra =>
        match string o text, extra with
        | .error e, _ => .error e
        | .ok s, [] => .ok (make s)
        | .ok _, _ =>
          .error (.invalidLength (2 + extra.length)
            (match o with
            | .document => .fewerItems
            | _ => .itemsInSequence 2))
  | _, j => .error (.invalidType j (.pair "DescriptionItem"))

/-- Prose. -/
def readDescription : Reader Description := list readDescriptionItem

/-- A deprecation: a truth value or a reason. -/
def readDeprecation : Reader Deprecation :=
  either "Deprecation" (boolean.map .flag) (readDescription.map .reason)

/-! ## Types -/

/-- A path, given by its segments. -/
def readPathname : Reader Pathname := list string

/-- What a link is made of, whatever its kind. -/
structure LinkParts where
  name : String := ""
  path : Pathname := []
  package : String := ""
  sourceFileName : String := ""
  qualifiedName : String := ""

/-- The kinds of link, each with its fields and with how it is made of them. -/
def linkKinds : Variants (Record LinkParts × (LinkParts → TypeLink)) where
  cases := [
    (["internal"],
      { title := .variantRecord "TypeXRef" "Internal"
        fields := [
          .required "name" string fun v p => { p with name := v },
          .required "path" readPathname fun v p => { p with path := v }] },
      fun p => .internal p.name p.path),
    (["external"],
      { title := .variantRecord "TypeXRef" "External"
        fields := [
          .required "name" string fun v p => { p with name := v },
          .required "package" string fun v p => { p with package := v },
          .required "source_file_name" string fun v p => { p with sourceFileName := v },
          .required "qualified_name" string fun v p => { p with qualifiedName := v }] },
      fun p => .external p.name p.package p.sourceFileName p.qualifiedName)]

/-- A link. -/
def readTypeLink : Reader TypeLink :=
  linkKinds.readTagged (.union "TypeXRef") "kind" fun kind content =>
    (kind.1.read {} .buffer content).map kind.2

/-- A token: a text or a link. -/
def readTypeToken : Reader TypeToken :=
  either "TypeToken" (string.map .text) (readTypeLink.map .link)

/-- A rendered type. -/
def readTypeText : Reader TypeText := list readTypeToken

/-! ## Parts of entities -/

/-- What all entities share. -/
def TopLevel.record : Record TopLevel where
  title := .record "TopLevel"
  fields := [
    .required "name" string fun v t => { t with name := v },
    .required "path" readPathname fun v t => { t with path := v },
    .required "filename" string fun v t => { t with filename := v },
    .nullable "deppath" (option string) fun v t => { t with deppath := v },
    .nullable "line" (option uint32) fun v t => { t with lineNumber := v },
    .required "description" readDescription fun v t => { t with description := v },
    .required "deprecated" readDeprecation fun v t => { t with deprecated := v },
    .required "examples" (list readDescription) fun v t => { t with examples := v },
    .nullable "exported_from" (option readPathname) fun v t => { t with exportedFrom := v }]

/-- A top level that nothing is known of. -/
def TopLevel.blank : TopLevel := ⟨"", [], "", none, none, [], .flag false, [], none⟩

/-- How a member stands to its owner. -/
def MemberProperties.record : Record MemberProperties where
  title := .record "MemberProperties"
  fields := [
    .required "is_abstract" boolean fun v m => { m with isAbstract := v },
    .required "is_optional" boolean fun v m => { m with isOptional := v },
    .required "is_static" boolean fun v m => { m with isStatic := v },
    .required "is_private" boolean fun v m => { m with isPrivate := v }]

/-- A parameter. -/
def Param.record : Record Param where
  title := .record "Param"
  fields := [
    .required "name" string fun v p => { p with name := v },
    .required "description" readDescription fun v p => { p with description := v },
    .required "has_default" boolean fun v p => { p with hasDefault := v },
    .required "is_variadic" boolean fun v p => { p with isVariadic := v },
    .required "type" readTypeText fun v p => { p with type := v },
    .nullable "default" (option string) fun v p => { p with default := v }]

/-- Reads a parameter. -/
def readParam : Reader Param := Param.record.read ⟨"", [], false, false, [], none⟩

/-- A result. -/
def Return.record : Record Return where
  title := .record "Return"
  fields := [
    .required "type" readTypeText fun v r => { r with type := v },
    .required "description" readDescription fun v r => { r with description := v }]

/-- Reads a result. -/
def readReturn : Reader Return := Return.record.read ⟨[], []⟩

/-- A type parameter. -/
def TypeParam.record : Record TypeParam where
  title := .record "TypeParam"
  fields := [
    .required "name" string fun v p => { p with name := v },
    .nullable "extends" (option readTypeText) fun v p => { p with extends_ := v },
    .required "description" readDescription fun v p => { p with description := v }]

/-- Reads a type parameter. -/
def readTypeParam : Reader TypeParam := TypeParam.record.read ⟨"", none, []⟩

/-! ## Functions and attributes -/

/-- What is a function's own. -/
def Function.record : Record Function where
  title := .record "Function"
  fields := [
    .required "is_async" boolean fun v f => { f with isAsync := v },
    .required "params" (list readParam) fun v f => { f with params := v },
    .required "returns" (list readReturn) fun v f => { f with returns := v },
    .required "type_params" (list readTypeParam) fun v f => { f with typeParams := v }]

/-- A function from the entries of an object. -/
def readFunctionEntries (entries : List (String × Json)) : Except Fault Function := do
  let own ← Function.record.readEntries .buffer ⟨.blank, {}, false, [], [], []⟩ entries
  let top ← TopLevel.record.readEntries .buffer .blank entries
  let member ← MemberProperties.record.readEntries .buffer {} entries
  pure { own with top := top, member := member }

/-- Reads a function. -/
def readFunction (j : Json) : Except Fault Function := do
  readFunctionEntries (← entriesOf (.record "Function") j)

/-- What is an attribute's own. -/
def Attribute.record : Record Attribute where
  title := .record "Attribute"
  fields := [.required "type" readTypeText fun v a => { a with type := v }]

/-- Reads an attribute. -/
def readAttribute (j : Json) : Except Fault Attribute := do
  let entries ← entriesOf (.record "Attribute") j
  let own ← Attribute.record.readEntries .buffer ⟨.blank, {}, []⟩ entries
  let top ← TopLevel.record.readEntries .buffer .blank entries
  let member ← MemberProperties.record.readEntries .buffer {} entries
  pure { own with top := top, member := member }

/-! ## Classes and interfaces -/

/-- The kinds of members. -/
def memberKinds : Variants (Json → Except Fault ClassMember) where
  cases := [
    (["function"], fun j => (readFunction j).map .function),
    (["attribute"], fun j => (readAttribute j).map .attribute)]

/-- Reads a member of a class or interface. -/
def readClassMember : Reader ClassMember :=
  memberKinds.readTagged (.union "ClassMember") "kind" fun read content => read content

/-- What is a class's own. -/
def Class.record : Record Class where
  title := .record "Class"
  fields := [
    .nullable "constructor" (option fun _ => readFunction) fun v c => { c with constructor := v },
    .required "members" (list readClassMember) fun v c => { c with members := v },
    .required "supers" (list readPathname) fun v c => { c with supers := v },
    .required "interfaces" (list readPathname) fun v c => { c with interfaces := v },
    .required "is_abstract" boolean fun v c => { c with isAbstract := v },
    .required "type_params" (list readTypeParam) fun v c => { c with typeParams := v }]

/-- Reads a class. -/
def readClass (j : Json) : Except Fault Class := do
  let entries ← entriesOf (.record "Class") j
  let own ← Class.record.readEntries .buffer ⟨.blank, none, [], [], [], false, []⟩ entries
  let top ← TopLevel.record.readEntries .buffer .blank entries
  pure { own with top := top }

/-- What is an interface's own. -/
def Interface.record : Record Interface where
  title := .record "Interface"
  fields := [
    .required "members" (list readClassMember) fun v i => { i with members := v },
    .required "supers" (list readPathname) fun v i => { i with supers := v },
    .required "type_params" (list readTypeParam) fun v i => { i with typeParams := v }]

/-- Reads an interface. -/
def readInterface (j : Json) : Except Fault Interface := do
  let entries ← entriesOf (.record "Interface") j
  let own ← Interface.record.readEntries .buffer ⟨.blank, [], [], []⟩ entries
  let top ← TopLevel.record.readEntries .buffer .blank entries
  pure { own with top := top }

/-! ## Entities -/

/-- The kinds of entities. -/
def entityKinds : Variants (Json → Except Fault Entity) where
  cases := [
    (["function"], fun j => (readFunction j).map .function),
    (["class"], fun j => (readClass j).map .classEntity),
    (["interface"], fun j => (readInterface j).map .interface),
    (["attribute"], fun j => (readAttribute j).map .attribute)]

/-- Reads an entity. -/
def readEntity : Reader Entity :=
  entityKinds.readTagged (.union "Entity") "kind" fun read content => read content

/-- Reads a list of entities. -/
def readEntities : Json → Except Fault (List Entity) := list readEntity .document

end DocAtlas
