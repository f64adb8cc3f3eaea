import DocAtlas.Decode.Record

/-!
Reading tagged unions.

The tag is one of the entries of an object, or the first item of an array. What is left is put aside
until the tag is known, and is then read as the variant's content.
-/

set_option autoImplicit false

namespace DocAtlas

/-- The variants of a union in their order, each with the names that it answers to. -/
structure Variants (κ : Type) where
  cases : List (List String × κ)

namespace Variants

variable {κ α : Type}

/-- Every name that a variant answers to. -/
def names (vs : Variants κ) : List String := vs.cases.flatMap (·.1)

/-- The variant of a name. -/
def ofName? (vs : Variants κ) (name : String) : Option κ :=
  (vs.cases.find? (·.1.contains name)).map (·.2)

/-- The variant of a name, which has to be known. -/
def named (vs : Variants κ) (name : String) : Except Fault κ :=
  match vs.ofName? name with
  | some variant => .ok variant
  | none => .error (.unknownVariant name vs.names)

/-- A tag: the name of a variant or, outside the document itself, its number. -/
def tag (vs : Variants κ) : Reader κ
  | _, .str name => vs.named name
  | .document, j => .error (.invalidType j .variantName)
  | _, .num (.int n) =>
    if n < 0 then .error (.invalidType (.num (.int n)) .variantName)
    else
      match vs.cases[n.toNat]? with
      | some (_, variant) => .ok variant
      | none => .error (.invalidValue (.num (.int n)) (.variantNumber vs.cases.length))
  | _, j => .error (.invalidType j .variantName)

/-- The record that holds nothing but the tag. -/
def tagRecord (vs : Variants κ) (title : Expected) (field : String) : Record (Option κ) where
  title := title
  fields := [.required field vs.tag fun variant _ => some variant]

/-- A union whose tag is the entry `field`: finds the variant, and reads what is left as its
content. -/
def readTagged (vs : Variants κ) (title : Expected) (field : String)
    (content : κ → Json → Except Fault α) :
    Reader α
  | o, .obj entries =>
    match (vs.tagRecord title field).readEntries o none entries with
    | .error e => .error e
    | .ok none => .error (.missingField field)
    | .ok (some variant) => content variant (.obj entries)
  | _, .arr [] => .error (.missingField field)
  | o, .arr (first :: rest) =>
    match vs.tag o first with
    | .error e => .error e
    | .ok variant => content variant (.arr rest)
  | _, j => .error (.invalidType j title)

/-- A variant without content, given by its name alone or as the only key of an object. Under the
key stands `null` or, in the buffer, an object without entries. -/
def readPlain (vs : Variants κ) : Reader κ
  | _, .str name => vs.named name
  | o, .obj [(name, value)] =>
    match vs.named name with
    | .error e => .error e
    | .ok variant =>
      match o, value with
      | _, .null => .ok variant
      | .buffer, .obj [] => .ok variant
      | _, _ => .error (.invalidType value .unit)
  | _, .obj entries => .error (.invalidValue (.obj entries) .singleKeyMap)
  | _, j => .error (.invalidType j .stringOrMap)

end Variants

end DocAtlas
