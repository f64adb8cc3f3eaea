import DocAtlas.Decode.Union
import DocAtlas.Document.Basic

/-!
Reading documents.

Declarations and type expressions contain each other, and everything else that is nested contains
one of the two. So every reader here is an ordinary function of a pair of readers for those two,
which are used on parts of the value only, and `readers n` is the pair for values that are nested at
most `n` deep. A value that is not nested is neither a declaration nor a type expression, which is
where the nesting ends.
-/

set_option autoImplicit false

namespace DocAtlas

/-! ## Comments -/

/-- `fileName` and `line` of a source. -/
def sourceRecord : Record Source where
  title := .record "Source"
  fields := [
    .required "fileName" Reader.string fun v s => { s with fileName := v },
    .defaulted "line" Reader.uint32 fun v s => { s with line := v }]

/-- A source. -/
def readSource : Reader Source := sourceRecord.read { fileName := "" }

/-- The flags by their names. -/
def flagsRecord : Record Flags where
  title := .record "Flags"
  fields := [
    .defaulted "isAbstract" Reader.boolean fun v f => { f with isAbstract := v },
    .defaulted "isExported" Reader.boolean fun v f => { f with isExported := v },
    .defaulted "isOptional" Reader.boolean fun v f => { f with isOptional := v },
    .defaulted "isPrivate" Reader.boolean fun v f => { f with isPrivate := v },
    .defaulted "isRest" Reader.boolean fun v f => { f with isRest := v },
    .defaulted "isStatic" Reader.boolean fun v f => { f with isStatic := v }]

/-- Flags; those that are not given are not set. -/
def readFlags : Reader Flags := flagsRecord.read {}

/-- The kinds of pieces of a comment. -/
inductive PartKind where
  | text
  | code
  | inlineTag
  deriving DecidableEq, Repr

/-- The names of the kinds of pieces. -/
def partVariants : Variants PartKind where
  cases := [(["text"], .text), (["code"], .code), (["inline-tag"], .inlineTag)]

/-- A record with a text and nothing else. -/
def textRecord (title : Expected) (field : String) : Record String where
  title := title
  fields := [.required field Reader.string fun v _ => v]

/-- `tag` and `text` of an inline tag. -/
def inlineTagRecord : Record (String × String) where
  title := .variantRecord "CommentPart" "InlineTag"
  fields := [
    .required "tag" Reader.string fun v p => (v, p.2),
    .defaulted "text" Reader.string fun v p => (p.1, v)]

/-- A piece of a comment. -/
def readPart : Reader CommentPart :=
  partVariants.readTagged (.union "CommentPart") "kind" fun
    | .text, j =>
      ((textRecord (.variantRecord "CommentPart" "Text") "text").read "" .buffer j).map
        CommentPart.text
    | .code, j =>
      ((textRecord (.variantRecord "CommentPart" "Code") "text").read "" .buffer j).map
        CommentPart.code
    | .inlineTag, j =>
      (inlineTagRecord.read ("", "") .buffer j).map fun (tag, text) =>
        CommentPart.inlineTag tag text

/-- `tag` and `content` of a block tag. -/
def blockTagRecord : Record BlockTag where
  title := .record "BlockTag"
  fields := [
    .required "tag" Reader.string fun v t => { t with tag := v },
    .defaulted "content" (Reader.list readPart) fun v t => { t with content := v }]

/-- `summary` and `blockTags` of a comment. -/
def commentRecord : Record Comment where
  title := .record "Comment"
  fields := [
    .defaulted "summary" (Reader.list readPart) fun v c => { c with summary := v },
    .defaulted "blockTags" (Reader.list (blockTagRecord.read { tag := "" }))
      fun v c => { c with blockTags := v }]

/-- A comment. -/
def readComment : Reader Comment := commentRecord.read {}

/-! ## What is nested -/

/-- Readers for the two kinds of value that everything nested goes back to. -/
structure Readers where
  declaration : Reader Declaration
  type : Reader TypeExpr

/-- The fields of a type parameter. -/
def typeParameterRecord (r : Readers) : Record TypeParameter where
  title := .record "TypeParameter"
  fields := [
    .defaulted "id" (Reader.option Reader.int64) fun v p => { p with id := v },
    .required "name" Reader.string fun v p => { p with name := v },
    (Field.defaulted "type" (Reader.option r.type) fun v p => { p with constraint := v }).orNamed
      "constraint",
    .defaulted "comment" readComment fun v p => { p with comment := v }]

/-- A type parameter. -/
def readTypeParameter (r : Readers) : Reader TypeParameter :=
  (typeParameterRecord r).read ⟨none, "", none, {}, default⟩

/-- The fields of a parameter. -/
def parameterRecord (r : Readers) : Record Parameter where
  title := .record "Param"
  fields := [
    .defaulted "id" (Reader.option Reader.int64) fun v p => { p with id := v },
    .required "name" Reader.string fun v p => { p with name := v },
    .required "type" r.type fun v p => { p with type := v },
    .defaulted "comment" readComment fun v p => { p with comment := v },
    .defaulted "defaultValue" (Reader.option Reader.string) fun v p => { p with defaultValue := v },
    .defaulted "flags" readFlags fun v p => { p with flags := v }]

/-- A parameter. -/
def readParameter (r : Readers) : Reader Parameter :=
  (parameterRecord r).read ⟨none, "", default, {}, none, {}, default⟩

/-- The names of the kinds of signatures. -/
def signatureVariants : Variants SignatureKind where
  cases := [SignatureKind.constructor, .call, .getter, .setter, .indexer].map fun k => ([k.name], k)

/-- The fields of a signature. -/
def signatureRecord (r : Readers) : Record Signature where
  title := .record "Signature"
  fields := [
    .defaulted "id" (Reader.option Reader.int64) fun v s => { s with id := v },
    .required "kindString" signatureVariants.readPlain fun v s => { s with kind := v },
    .defaulted "name" Reader.string fun v s => { s with name := v },
    .defaulted "sources" (Reader.list readSource) fun v s => { s with sources := v },
    .defaulted "flags" readFlags fun v s => { s with flags := v },
    .defaulted "comment" readComment fun v s => { s with comment := v },
    (Field.defaulted "typeParameters" (Reader.list (readTypeParameter r))
      fun v s => { s with typeParameters := v }).orNamed "typeParameter",
    .defaulted "parameters" (Reader.list (readParameter r)) fun v s => { s with parameters := v },
    .defaulted "type" (Reader.option r.type) fun v s => { s with result := v },
    .defaulted "inheritedFrom" (Reader.option Reader.any) fun v s => { s with inheritedFrom := v }]

/-- A signature. -/
def readSignature (r : Readers) : Reader Signature :=
  (signatureRecord r).read ⟨none, .call, "", [], {}, {}, [], [], none, none, default, {}⟩

/-! ## Type expressions -/

/-- The kinds of type expressions. -/
inductive TypeTag where
  | intrinsic
  | reference
  | array
  | tuple
  | union
  | intersection
  | operator
  | literal
  | predicate
  | reflection
  | parameter
  | unknown
  | unmodelled (kind : UnmodelledKind)
  deriving DecidableEq, Repr

/-- The names of the kinds of type expressions. -/
def typeVariants : Variants TypeTag where
  cases := [
    (["intrinsic"], .intrinsic), (["reference"], .reference), (["array"], .array),
    (["tuple"], .tuple),
    (["union"], .union), (["intersection"], .intersection), (["typeOperator"], .operator),
    (["literal"], .literal), (["predicate"], .predicate), (["reflection"], .reflection),
    (["typeParameter"], .parameter), (["unknown"], .unknown)]
    ++ [UnmodelledKind.indexedAccess, .conditional, .query, .mapped, .templateLiteral, .inferred,
      .optional, .rest, .namedTupleMember].map fun k => ([k.name], TypeTag.unmodelled k)

/-- The two texts of a target in another package. -/
def externalRecord : Record (String × String) where
  title := .record "ExternalTarget"
  fields := [
    .required "sourceFileName" Reader.string fun v p => (v, p.2),
    .required "qualifiedName" Reader.string fun v p => (p.1, v)]

/-- The target of a reference: an id, or a place in another package. -/
def readTarget : Reader RefTarget :=
  Reader.either "RefTarget" (Reader.int64.map RefTarget.id)
    ((externalRecord.read ("", "")).map fun (file, name) => RefTarget.external file name)

/-- The fields of a reference. -/
def referenceRecord : Record Reference where
  title := .record "ReferenceType"
  fields := [
    .required "name" Reader.string fun v r => { r with name := v },
    .defaulted "target" (Reader.option readTarget) fun v r => { r with target := v },
    .defaulted "id" (Reader.option Reader.int64) fun v r => { r with id := v },
    .defaulted "package" (Reader.option Reader.string) fun v r => { r with package := v },
    .defaulted "refersToTypeParameter" Reader.boolean fun v r => { r with isTypeParameter := v }]

/-- A record with a list of types and nothing else. -/
def typesRecord (r : Readers) (variant field : String) (presence : Presence) :
    Record (List TypeExpr) where
  title := .variantRecord "TypeKind" variant
  fields := [.ofReader presence field (Reader.list r.type) fun v _ => v]

/-- The fields of an operator applied to a type. -/
def operatorRecord (r : Readers) : Record (String × TypeExpr) where
  title := .variantRecord "TypeKind" "TypeOperator"
  fields := [
    .required "operator" Reader.string fun v p => (v, p.2),
    .required "target" r.type fun v p => (p.1, v)]

/-- The fields of a predicate. -/
def predicateRecord (r : Readers) : Record (String × Bool × Option TypeExpr) where
  title := .variantRecord "TypeKind" "Predicate"
  fields := [
    .required "name" Reader.string fun v p => (v, p.2),
    .defaulted "asserts" Reader.boolean fun v p => (p.1, v, p.2.2),
    .defaulted "targetType" (Reader.option r.type) fun v p => (p.1, p.2.1, v)]

/-- What the entries of a type expression hold beyond its tag and its arguments. -/
def readTypeKind (r : Readers) (tag : TypeTag) (entries : List (String × Json)) :
    Except Fault TypeKind :=
  match tag with
  | .intrinsic =>
    ((textRecord (.variantRecord "TypeKind" "Intrinsic") "name").readEntries .buffer "" entries).map
      TypeKind.intrinsic
  | .reference =>
    (referenceRecord.readEntries .buffer { name := "" } entries).map TypeKind.reference
  | .array =>
    (Record.readEntries ⟨.variantRecord "TypeKind" "Array",
      [.required "elementType" r.type fun v _ => v]⟩ .buffer default entries).map TypeKind.array
  | .tuple =>
    ((typesRecord r "Tuple" "elements" .defaulted).readEntries .buffer [] entries).map
      TypeKind.tuple
  | .union =>
    ((typesRecord r "Union" "types" .required).readEntries .buffer [] entries).map TypeKind.union
  | .intersection =>
    ((typesRecord r "Intersection" "types" .required).readEntries .buffer [] entries).map
      TypeKind.intersection
  | .operator =>
    ((operatorRecord r).readEntries .buffer ("", default) entries).map fun (name, target) =>
      TypeKind.operator name target
  | .literal =>
    (Record.readEntries ⟨.variantRecord "TypeKind" "Literal",
      [.defaulted "value" Reader.any fun v _ => v]⟩ .buffer Json.null entries).map TypeKind.literal
  | .predicate =>
    ((predicateRecord r).readEntries .buffer ("", false, none) entries).map
      fun (name, asserts, target) =>
      TypeKind.predicate name asserts target
  | .reflection =>
    (Record.readEntries ⟨.variantRecord "TypeKind" "Reflection",
      [.required "declaration" r.declaration fun v _ => v]⟩ .buffer ⟨{}, [], .scope .reference⟩
        entries).map
      TypeKind.reflection
  | .parameter =>
    ((textRecord (.variantRecord "TypeKind" "TypeParameter") "name").readEntries .buffer ""
      entries).map
      TypeKind.parameter
  | .unknown =>
    ((textRecord (.variantRecord "TypeKind" "Unknown") "name").readEntries .buffer "" entries).map
      TypeKind.unknown
  | .unmodelled kind => .ok (.unmodelled kind)

/-- The tag and the arguments of a type expression. -/
def typeHeadRecord (r : Readers) : Record (Option TypeTag × List TypeExpr) where
  title := .union "TypeKind"
  fields := [
    .required "type" typeVariants.tag fun v p => (some v, p.2),
    .defaulted "typeArguments" (Reader.option (Reader.list r.type)) fun v p => (p.1, v.getD [])]

/-- A type expression: its tag and arguments come first, then what its kind has. -/
def readTypeWith (r : Readers) : Reader TypeExpr := fun o j => do
  let entries ← entriesOf .typeExpression j
  match ← (typeHeadRecord r).readEntries o (none, []) entries with
  | (none, _) => .error (.missingField "type")
  | (some tag, arguments) =>
    let kind ← readTypeKind r tag entries
    .ok ⟨kind, arguments⟩

/-! ## Declarations -/

/-- The names of the kinds of declarations, in their order. -/
def declarationVariants : Variants DeclarationKind where
  cases := [
    (["Accessor"], .accessor), (["Class"], .classLike .classDecl),
    (["Interface"], .classLike .interface), (["Constructor"], .callable .constructor),
    (["Method"], .callable .method), (["Function"], .callable .function),
    (["Property"], .member .property), (["Variable"], .member .variableDecl),
    (["External module", "Module"], .scope .moduleDecl), (["Namespace"], .scope .namespaceDecl),
    (["Type literal"], .typeLiteral), (["Enumeration"], .scope .enumeration),
    (["Enumeration Member", "Enumeration member"], .scope .enumerationMember),
    (["Type alias"], .scope .typeAlias), (["Reference"], .scope .reference)]

/-- The fields that all declarations share, with the children. -/
def headerRecord (r : Readers) : Record (Header × List Declaration) where
  title := .record "Decl"
  fields := [
    .defaulted "id" (Reader.option Reader.int64) fun v d => ({ d.1 with id := v }, d.2),
    .defaulted "name" Reader.string fun v d => ({ d.1 with name := v }, d.2),
    .defaulted "originalName" (Reader.option Reader.string)
      fun v d => ({ d.1 with originalName := v }, d.2),
    .defaulted "sources" (Reader.list readSource) fun v d => ({ d.1 with sources := v }, d.2),
    .defaulted "flags" readFlags fun v d => ({ d.1 with flags := v }, d.2),
    .defaulted "comment" readComment fun v d => ({ d.1 with comment := v }, d.2),
    .defaulted "children" (Reader.list r.declaration) fun v d => (d.1, v)]

/-- The two signatures of an accessor. -/
def accessorRecord (r : Readers) : Record (Option Signature × Option Signature) where
  title := .record "Accessor"
  fields := [
    .defaulted "getSignature" (Reader.option (readSignature r)) fun v p => (v, p.2),
    .defaulted "setSignature" (Reader.option (readSignature r)) fun v p => (p.1, v)]

/-- What a class or interface extends and implements, and its type parameters. -/
def classRecord (r : Readers) : Record (List TypeExpr × List TypeExpr × List TypeParameter) where
  title := .record "ClassLike"
  fields := [
    .defaulted "extendedTypes" (Reader.list r.type) fun v p => (v, p.2),
    .defaulted "implementedTypes" (Reader.list r.type) fun v p => (p.1, v, p.2.2),
    (Field.defaulted "typeParameters" (Reader.list (readTypeParameter r))
      fun v p => (p.1, p.2.1, v)).orNamed "typeParameter"]

/-- The signatures of a callable. -/
def callableRecord (r : Readers) : Record (List Signature) where
  title := .record "Callable"
  fields := [.defaulted "signatures" (Reader.list (readSignature r)) fun v _ => v]

/-- The type of a property or variable. -/
def memberRecord (r : Readers) : Record TypeExpr where
  title := .record "Member"
  fields := [.required "type" r.type fun v _ => v]

/-- The parts of a type literal. -/
def typeLiteralRecord (r : Readers) :
    Record (Option String × List Signature × Option Signature) where
  title := .record "TypeLiteral"
  fields := [
    .defaulted "variant" (Reader.option Reader.string) fun v p => (v, p.2),
    .defaulted "signatures" (Reader.list (readSignature r)) fun v p => (p.1, v, p.2.2),
    .defaulted "indexSignature" (Reader.option (readSignature r)) fun v p => (p.1, p.2.1, v)]

/-- What messages call a declaration of some kind. -/
def detailTitle : DeclarationKind → Expected
  | .accessor => .record "Accessor"
  | .classLike _ => .record "ClassLike"
  | .callable _ => .record "Callable"
  | .member _ => .record "Member"
  | .typeLiteral => .record "TypeLiteral"
  | .scope .moduleDecl => .record "ModuleDecl"
  | .scope _ => .record "Other"

/-- What a declaration of some kind has of its own. -/
def readDetail (r : Readers) (kind : DeclarationKind) (entries : List (String × Json)) :
    Except Fault Detail :=
  match kind with
  | .accessor =>
    ((accessorRecord r).readEntries .buffer (none, none) entries).map fun (getter, setter) =>
      .accessor getter setter
  | .classLike kind =>
    ((classRecord r).readEntries .buffer ([], [], []) entries).map
      fun (extended, implemented, typeParameters) =>
        .classLike kind extended implemented typeParameters
  | .callable kind => ((callableRecord r).readEntries .buffer [] entries).map (.callable kind)
  | .member kind => ((memberRecord r).readEntries .buffer default entries).map (.member kind)
  | .typeLiteral =>
    ((typeLiteralRecord r).readEntries .buffer (none, [], none) entries).map
      fun (variant, signatures, indexer) => .typeLiteral variant signatures indexer
  | .scope kind => .ok (.scope kind)

/-- A declaration: its kind, then what the kind has of its own, then what all declarations share. -/
def readDeclarationWith (r : Readers) : Reader Declaration :=
  declarationVariants.readTagged (.union "Node") "kindString" fun kind j => do
    let entries ← entriesOf (detailTitle kind) j
    let detail ← readDetail r kind entries
    let (header, children) ← (headerRecord r).readEntries .buffer ({}, []) entries
    .ok ⟨header, children, detail⟩

/-! ## All nesting depths -/

/-- Readers for values of a nesting depth. -/
def readers : Nat → Readers
  | 0 => {
    declaration := fun _ j => .error (.invalidType j (.union "Node"))
    type := fun _ j => .error (.invalidType j .typeExpression) }
  | n + 1 => {
    declaration := readDeclarationWith (readers n)
    type := readTypeWith (readers n) }

/-- A declaration. -/
def readDeclaration : Reader Declaration := fun o j => (readers j.depth).declaration o j

/-- A type expression. -/
def readType : Reader TypeExpr := fun o j => (readers j.depth).type o j

/-- The fields of a project. -/
def projectRecord (r : Readers) : Record Project where
  title := .record "Project"
  fields := [
    .defaulted "id" (Reader.option Reader.int64) fun v p => { p with id := v },
    .defaulted "name" (Reader.option Reader.string) fun v p => { p with name := v },
    .defaulted "children" (Reader.list r.declaration) fun v p => { p with children := v },
    .defaulted "flags" readFlags fun v p => { p with flags := v }]

/-- A project. -/
def readProject : Reader Project := fun o j => (projectRecord (readers j.depth)).read {} o j

end DocAtlas
