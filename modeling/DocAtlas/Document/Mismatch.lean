import DocAtlas.Document.Reader

/-!
Where a document does not match.

A fault deep inside a document shows only as a fault of the whole. To find its place, every object
that says what it is, by a `kindString` or a `type`, is read on its own; of the objects that fail,
the ones are reported that have no failing object inside them.
-/

set_option autoImplicit false

namespace DocAtlas

/-! ## Locations -/

/-- A step from a value to one inside it. -/
inductive Step where
  | key (key : String)
  | index (index : Nat)
  deriving DecidableEq, Repr

/-- Where a value stands in a document: the steps from the root. -/
abbrev Location : Type := List Step

namespace Location

/-- A step behind another one. -/
def stepText : Step → String
  | .key key => "." ++ key
  | .index index => "[" ++ toString index ++ "]"

/-- A location as it is shown, such as `children[0].type`. -/
def text : Location → String
  | [] => "<root>"
  | .key key :: steps => key ++ String.join (steps.map stepText)
  | .index index :: steps => stepText (.index index) ++ String.join (steps.map stepText)

/-- Whether the second location lies inside the first. -/
def isAbove (outer inner : Location) : Bool :=
  outer.length < inner.length && outer.isPrefixOf inner

end Location

/-- The value at a location. -/
def Json.at? : Json → Location → Option Json
  | j, [] => some j
  | .obj entries, .key key :: steps => (entries.lookup key).bind (at? · steps)
  | .arr items, .index index :: steps => items[index]?.bind (at? · steps)
  | _, _ => none

/-- The values directly inside a value, each with the step that leads to it. -/
def Json.parts : Json → List (Step × Json)
  | .arr items => items.zipIdx.map fun item => (.index item.2, item.1)
  | .obj entries => entries.map fun entry => (.key entry.1, entry.2)
  | _ => []

/-- Values in a row are as large as the two halves of the row, whose ends are counted twice. -/
theorem Json.sizeOf_append (a b : List Json) : sizeOf (a ++ b) + 1 = sizeOf a + sizeOf b := by
  induction a with
  | nil => simp only [List.nil_append, List.nil.sizeOf_spec]; omega
  | cons j a ih => simp only [List.cons_append, List.cons.sizeOf_spec]; omega

/-- What is inside a value is no larger than the value. -/
theorem Json.sizeOf_parts_le (j : Json) : sizeOf (j.parts.map (·.2)) ≤ sizeOf j := by
  cases j with
  | arr items =>
    simp only [parts, List.map_map, Function.comp_def, List.zipIdx_map_fst, Json.arr.sizeOf_spec]
    omega
  | obj entries =>
    have h : sizeOf (entries.map (·.2)) ≤ sizeOf entries := by
      induction entries with
      | nil => exact Nat.le_refl _
      | cons entry entries ih =>
        obtain ⟨key, value⟩ := entry
        simp only [List.map_cons, List.cons.sizeOf_spec, Prod.mk.sizeOf_spec]
        omega
    simp only [parts, List.map_map, Function.comp_def, Json.obj.sizeOf_spec]
    omega
  | null => exact Nat.le_refl _
  | bool b => exact Nat.le_add_right 1 _
  | num n => exact Nat.le_add_right 1 _
  | str s => exact Nat.le_add_right 1 _

/-! ## What an object says that it is -/

/-- What an object may say that it is. -/
inductive Shape where
  | declaration
  | signature
  | parameter
  | typeParameter
  | project
  | type
  deriving DecidableEq, Repr

namespace Shape

/-- The words for a shape. -/
def name : Shape → String
  | .declaration => "declaration"
  | .signature => "signature"
  | .parameter => "parameter"
  | .typeParameter => "type parameter"
  | .project => "project"
  | .type => "type expression"

/-- The shape that a `kindString` stands for. -/
def ofKindString (value : String) : Option Shape :=
  if signatureVariants.names.contains value then some .signature
  else if value = "Parameter" then some .parameter
  else if value = "Type parameter" then some .typeParameter
  else if value = "Project" then some .project
  else if declarationVariants.names.contains value then some .declaration
  else none

/-- The shape that a `type` stands for. -/
def ofType (value : String) : Option Shape :=
  if typeVariants.names.contains value then some .type else none

/-- Reads a value as what it says that it is; the fault, if there is one. -/
def fault? (shape : Shape) (j : Json) : Option Fault :=
  let faultOf {α : Type} : Except Fault α → Option Fault
    | .error e => some e
    | .ok _ => none
  match shape with
  | .declaration => faultOf (readDeclaration .document j)
  | .signature => faultOf (readSignature (readers j.depth) .document j)
  | .parameter => faultOf (readParameter (readers j.depth) .document j)
  | .typeParameter => faultOf (readTypeParameter (readers j.depth) .document j)
  | .project => faultOf (readProject .document j)
  | .type => faultOf (readType .document j)

end Shape

/-- The entry by which an object says what it is. -/
inductive TagField where
  | kindString
  | type
  deriving DecidableEq, Repr

/-- The key of the entry. -/
def TagField.name : TagField → String
  | .kindString => "kindString"
  | .type => "type"

/-- What an object says that it is: the entry, its text, and the shape that the text stands for, if
it stands for any. -/
structure Discriminator where
  field : TagField
  value : String
  shape : Option Shape
  deriving DecidableEq, Repr

/-- The discriminator of an object: its `kindString` if that is a text, else its `type`. -/
def Discriminator.of? (entries : List (String × Json)) : Option Discriminator :=
  match (entries.lookup "kindString").bind Json.asStr? with
  | some value => some ⟨.kindString, value, Shape.ofKindString value⟩
  | none =>
    ((entries.lookup "type").bind Json.asStr?).map fun value => ⟨.type, value, Shape.ofType value⟩

/-! ## Mismatches -/

/-- What is wrong at a location. -/
inductive Cause where
  | fault (e : Fault)
  | noShape (field : TagField) (value : String)

/-- The wording of a cause. -/
def Cause.text : Cause → String
  | .fault e => e.message
  | .noShape field value => "no variant matches " ++ field.name ++ " `" ++ value ++ "`"

/-- A location where the document does not match, with what the object there says that it is. -/
structure Mismatch where
  location : Location
  discriminator : Option Discriminator
  cause : Cause

namespace Mismatch

/-- The wording of a mismatch. -/
def text (m : Mismatch) : String :=
  let claim := match m.discriminator with
    | none => ""
    | some d =>
      let expected := match d.shape with
        | none => ""
        | some shape => ", expected a " ++ shape.name
      " (" ++ d.field.name ++ " = " ++ Text.quoted d.value ++ expected ++ ")"
  "at " ++ m.location.text ++ claim ++ ": " ++ m.cause.text

/-- The wording of all mismatches of a document. -/
def textOfAll (mismatches : List Mismatch) : String :=
  "document does not match the expected schema:"
    ++ String.join (mismatches.map fun m => "\n  " ++ m.text)

/-- What is wrong with the value at a location, if it is an object that says what it is. -/
def of? (location : Location) : Json → Option Mismatch
  | .obj entries =>
    (Discriminator.of? entries).bind fun d =>
      match d.shape with
      | none => some ⟨location, some d, .noShape d.field d.value⟩
      | some shape =>
        (shape.fault? (.obj entries)).map fun fault => ⟨location, some d, .fault fault⟩
  | _ => none

end Mismatch

/-- The failing objects among pending values and inside them, an object before what is inside it.
What is pending is kept on a list, so a document may be nested to any depth. -/
def failures (pending : List (Location × Json)) : List Mismatch :=
  match pending with
  | [] => []
  | (location, value) :: rest =>
    (Mismatch.of? location value).toList
      ++ failures (value.parts.map (fun part => (location ++ [part.1], part.2)) ++ rest)
termination_by sizeOf (pending.map (·.2))
decreasing_by
  have := Json.sizeOf_parts_le value
  simp only [List.map_append, List.map_map, Function.comp_def, List.map_cons, List.cons.sizeOf_spec]
  have := Json.sizeOf_append (value.parts.map (·.2)) (rest.map (·.2))
  omega

/-- The mismatches that have none inside them. In a list that puts an object before what is inside
it, what is inside one comes right behind it, so looking at the next one is enough. -/
def innermost : List Mismatch → List Mismatch
  | m :: next :: rest =>
    if m.location.isAbove next.location then innermost (next :: rest)
    else m :: innermost (next :: rest)
  | rest => rest

/-- The places where a rejected document does not match. If no object can be blamed, the fault of
the whole is reported at the root. -/
def narrow (document : Json) (bulk : Fault) : List Mismatch :=
  match innermost (failures [([], document)]) with
  | [] => [⟨[], none, .fault bulk⟩]
  | mismatches => mismatches

end DocAtlas
