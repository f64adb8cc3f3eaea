import DocAtlas.Decode.Fault
import DocAtlas.SuffixTree.Basic

/-!
What happens during an analysis and is worth telling.

An event is a value; its level, its message and its fields are functions of it. Fields are listed in
the order in which they are shown on a terminal, and by name in a trace.
-/

set_option autoImplicit false

namespace DocAtlas

/-- How much an event matters. -/
inductive Level where
  | debug
  | info
  | warn
  | error
  deriving DecidableEq, Repr

/-- The word for a level. -/
def Level.name : Level → String
  | .debug => "DEBUG"
  | .info => "INFO"
  | .warn => "WARN"
  | .error => "ERROR"

/-! ## What cannot be converted faithfully -/

/-- How a class or interface refers to another. -/
inductive Relation where
  | superclass
  | implementedInterface
  | extendedInterface
  deriving DecidableEq, Repr

/-- The words for a relation. -/
def Relation.name : Relation → String
  | .superclass => "superclass"
  | .implementedInterface => "implemented interface"
  | .extendedInterface => "extended interface"

/-- A construct that has no faithful entity. -/
inductive Gap where
  | untypedAccessor (name : String)
  | relatedByType (relation : Relation) (typeTag : String)
  | relatedToNothing (relation : Relation) (name : String)
  deriving DecidableEq, Repr

/-- The wording of a gap. -/
def Gap.text : Gap → String
  | .untypedAccessor name =>
    "accessor `" ++ name ++ "` has neither a getter type nor a setter parameter"
  | .relatedByType relation typeTag => relation.name ++ " given as a `" ++ typeTag ++ "` type"
  | .relatedToNothing relation name =>
    relation.name ++ " `" ++ name ++ "` does not point at a declaration"

/-- What is done about a reference to an id that the index does not have. -/
inductive Fallback where
  | plainText
  | omitted (relation : Relation)
  deriving DecidableEq, Repr

/-- The wording of a fallback. -/
def Fallback.text : Fallback → String
  | .plainText => "rendering as plain text"
  | .omitted relation => relation.name ++ " omitted"

/-! ## Events -/

/-- An event of an analysis. -/
inductive Event where
  | documentRejected (fault : Fault)
  | idSeenTwice (id : Int) (kind : String)
  | indexPopulated (nodes : Nat)
  | externalSkipped (name : String)
  | inheritedSkipped (name : String)
  | extraConstructor (className : String)
  | notAMember (className kind : String)
  | foreignRelation (relation : Relation) (name : String)
  | notAProperty (param kind : String)
  | notDestructurable (param : String)
  | tagRepeated (tag : String)
  | unresolved (name : String) (id : Int) (fallback : Fallback)
  | indexSignatureWithoutKey
  | unimplemented (gap : Gap)
  | conversionFinished (entities : Nat)
  | pathTaken (path kind : String)
  | analysisReady (nodes entities addressable : Nat)

/-- The value of a field. Texts are quoted on a terminal, except those that are shown as they
are. -/
inductive FieldValue where
  | number (n : Int)
  | text (s : String)
  | shown (s : String)

/-- The value as it is written in a trace. -/
def FieldValue.bare : FieldValue → String
  | .number n => toString n
  | .text s => s
  | .shown s => s

/-- The value as it is written on a terminal. -/
def FieldValue.quoted : FieldValue → String
  | .number n => toString n
  | .text s => Text.quoted s
  | .shown s => s

namespace Event

/-- How much the event matters. -/
def level : Event → Level
  | .documentRejected _ => .debug
  | .idSeenTwice _ _ => .debug
  | .indexPopulated _ => .debug
  | .externalSkipped _ => .debug
  | .inheritedSkipped _ => .debug
  | .extraConstructor _ => .debug
  | .notAMember _ _ => .debug
  | .foreignRelation _ _ => .debug
  | .notAProperty _ _ => .debug
  | .notDestructurable _ => .warn
  | .tagRepeated _ => .warn
  | .unresolved _ _ _ => .warn
  | .indexSignatureWithoutKey => .warn
  | .unimplemented _ => .warn
  | .conversionFinished _ => .info
  | .pathTaken _ _ => .warn
  | .analysisReady _ _ _ => .info

/-- The event's message. -/
def message : Event → String
  | .documentRejected _ => "document rejected; narrowing"
  | .idSeenTwice _ _ => "id seen twice; keeping the later node"
  | .indexPopulated _ => "index populated"
  | .externalSkipped _ => "skipping node declared outside the analyzed tree"
  | .inheritedSkipped _ => "skipping inherited signature without its own comment"
  | .extraConstructor _ => "ignoring additional constructor"
  | .notAMember _ _ => "nested declaration is not a class member"
  | .foreignRelation relation _ => "skipping " ++ relation.name ++ " from another package"
  | .notAProperty _ _ => "ignoring non-property member of destructured parameter"
  | .notDestructurable _ => "cannot destructure a parameter whose type is not an object literal"
  | .tagRepeated _ => "tag appears more than once; using the first"
  | .unresolved name id fallback =>
    "Unresolved reference: `" ++ name ++ "` points at id " ++ toString id
      ++ ", which is not in the index; " ++ fallback.text
  | .indexSignatureWithoutKey => "index signature without a key parameter; omitted"
  | .unimplemented gap => "UNIMPLEMENTED: " ++ gap.text
  | .conversionFinished _ => "conversion finished"
  | .pathTaken path _ => (LookupError.duplicate path).message ++ "; keeping the first entity"
  | .analysisReady _ _ _ => "analysis ready"

/-- The event's fields. -/
def fields : Event → List (String × FieldValue)
  | .documentRejected fault => [("error", .shown fault.message)]
  | .idSeenTwice id kind => [("id", .number id), ("kind", .text kind)]
  | .indexPopulated nodes => [("nodes", .number nodes)]
  | .externalSkipped name => [("name", .shown name)]
  | .inheritedSkipped name => [("name", .shown name)]
  | .extraConstructor className => [("class", .shown className)]
  | .notAMember className kind => [("class", .shown className), ("kind", .text kind)]
  | .foreignRelation _ name => [("name", .shown name)]
  | .notAProperty param kind => [("param", .shown param), ("kind", .text kind)]
  | .notDestructurable param => [("param", .shown param)]
  | .tagRepeated tag => [("tag", .text tag)]
  | .unresolved _ _ _ => []
  | .indexSignatureWithoutKey => []
  | .unimplemented _ => []
  | .conversionFinished entities => [("entities", .number entities)]
  | .pathTaken _ kind => [("kind", .text kind)]
  | .analysisReady nodes entities addressable =>
    [("nodes", .number nodes), ("entities", .number entities), ("addressable", .number addressable)]

/-- The message with its fields by name. -/
def traceText (e : Event) : String :=
  let byName := e.fields.mergeSort fun a b => !(b.1 < a.1)
  e.message ++ String.join (byName.map fun (name, value) => " " ++ name ++ "=" ++ value.bare)

/-- The line of a trace. -/
def traceLine (e : Event) : String := e.level.name ++ " " ++ e.traceText

end Event

/-- The texts of the warnings among some events. -/
def warningsOf (events : List Event) : List String :=
  (events.filter (·.level = .warn)).map Event.traceText

end DocAtlas
