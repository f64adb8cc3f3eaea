import DocAtlas.Json.Printer
import DocAtlas.Text.Quoted

/-!
Why a JSON value is not what was asked for.

A fault names its cause; the wording of all of them is in `Fault.message`.
-/

set_option autoImplicit false

namespace DocAtlas

/-- What was asked for, or what a list of items had to hold. -/
inductive Expected where
  | string
  | int64
  | uint32
  | boolean
  | sequence
  | unit
  | typeExpression
  /-- A record of this name. -/
  | record (name : String)
  /-- The record of one variant of a union. -/
  | variantRecord (choice variant : String)
  /-- A union whose tag is one of the entries. -/
  | union (name : String)
  /-- A union whose tag and content are two entries. -/
  | pair (name : String)
  /-- The name of a variant. -/
  | variantName
  /-- The number of a variant, below a count. -/
  | variantNumber (count : Nat)
  | stringOrMap
  | singleKeyMap
  /-- The items of something, as many as it has fields. -/
  | itemsOf (whole : Expected) (count : Nat)
  | fewerItems
  | itemsInSequence (count : Nat)
  deriving DecidableEq, Repr

/-- A count of elements. -/
def elementCount (n : Nat) : String :=
  if n = 1 then "1 element" else toString n ++ " elements"

/-- The wording of an expectation. -/
def Expected.text : Expected → String
  | .string => "a string"
  | .int64 => "i64"
  | .uint32 => "u32"
  | .boolean => "a boolean"
  | .sequence => "a sequence"
  | .unit => "unit"
  | .typeExpression => "a type expression object"
  | .record name => "struct " ++ name
  | .variantRecord choice variant => "struct variant " ++ choice ++ "::" ++ variant
  | .union name => "internally tagged enum " ++ name
  | .pair name => "adjacently tagged enum " ++ name
  | .variantName => "variant identifier"
  | .variantNumber count => "variant index 0 <= i < " ++ toString count
  | .stringOrMap => "string or map"
  | .singleKeyMap => "map with a single key"
  | .itemsOf whole count => whole.text ++ " with " ++ elementCount count
  | .fewerItems => "fewer elements in array"
  | .itemsInSequence count => elementCount count ++ " in sequence"

/-- The kind of value that was found instead, with a scalar's own text. -/
def foundText : Json → String
  | .null => "null"
  | .bool b => "boolean `" ++ (if b then "true" else "false") ++ "`"
  | .num (.int n) => "integer `" ++ toString n ++ "`"
  | .num (.double x) => "floating point `" ++ Number.doubleText x ++ "`"
  | .str s => "string " ++ Text.quoted s
  | .arr _ => "sequence"
  | .obj _ => "map"

/-- Why a value could not be read. -/
inductive Fault where
  | invalidType (found : Json) (expected : Expected)
  | invalidValue (found : Json) (expected : Expected)
  | invalidLength (count : Nat) (expected : Expected)
  | missingField (name : String)
  | duplicateField (name : String)
  | unknownVariant (name : String) (known : List String)
  | noVariant (union : String)

/-- A list of alternatives. -/
def alternatives : List String → String
  | [a] => "`" ++ a ++ "`"
  | [a, b] => "`" ++ a ++ "` or `" ++ b ++ "`"
  | names => "one of " ++ ", ".intercalate (names.map fun name => "`" ++ name ++ "`")

/-- The wording of a fault. -/
def Fault.message : Fault → String
  | .invalidType found expected =>
    "invalid type: " ++ foundText found ++ ", expected " ++ expected.text
  | .invalidValue found expected =>
    "invalid value: " ++ foundText found ++ ", expected " ++ expected.text
  | .invalidLength count expected =>
    "invalid length " ++ toString count ++ ", expected " ++ expected.text
  | .missingField name => "missing field `" ++ name ++ "`"
  | .duplicateField name => "duplicate field `" ++ name ++ "`"
  | .unknownVariant name known =>
    "unknown variant `" ++ name ++ "`, expected " ++ alternatives known
  | .noVariant union => "data did not match any variant of untagged enum " ++ union

end DocAtlas
