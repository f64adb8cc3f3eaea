import DocAtlas.Decode.Fault

/-!
Reading single values, lists and choices.

A reader is told where its value comes from. A value that belongs to a tagged union is put aside
until the tag is known, and is then read from the `buffer`. A value that may be one of several
things is `lent` to one reader after the other. Any other value is read from the `document` itself.
They differ in how strictly a tag and the length of a list of fields are taken, and in what stands
for the content of a variant without any.
-/

set_option autoImplicit false

namespace DocAtlas

/-- Where a value is read from. -/
inductive Origin where
  | document
  | buffer
  | lent
  deriving DecidableEq, Repr

/-- Reads a value from a place of the given origin. -/
abbrev Reader (α : Type) : Type := Origin → Json → Except Fault α

namespace Reader

/-- Any text. -/
def string : Reader String
  | _, .str s => .ok s
  | _, j => .error (.invalidType j .string)

/-- A truth value. -/
def boolean : Reader Bool
  | _, .bool b => .ok b
  | _, j => .error (.invalidType j .boolean)

/-- An integer between two bounds, the upper one excluded. -/
def integerIn (low high : Int) (expected : Expected) : Reader Int
  | _, .num (.int n) =>
    if low ≤ n ∧ n < high then .ok n else .error (.invalidValue (.num (.int n)) expected)
  | _, j => .error (.invalidType j expected)

/-- A signed integer of 64 bits. -/
def int64 : Reader Int := integerIn (-Int.pow 2 63) (Int.pow 2 63) .int64

/-- An unsigned integer of 32 bits. -/
def uint32 : Reader UInt32 := fun o j =>
  (integerIn 0 (Int.pow 2 32) .uint32 o j).map fun n => UInt32.ofNat n.toNat

/-- The value itself. -/
def any : Reader Json := fun _ j => .ok j

/-- The items of a list, read one by one. -/
def items {α : Type} (r : Reader α) (o : Origin) : List Json → Except Fault (List α)
  | [] => .ok []
  | j :: js =>
    match r o j with
    | .error e => .error e
    | .ok a =>
      match items r o js with
      | .error e => .error e
      | .ok as => .ok (a :: as)

/-- A list. -/
def list {α : Type} (r : Reader α) : Reader (List α)
  | o, .arr js => items r o js
  | _, j => .error (.invalidType j .sequence)

/-- A value that may be `null`. -/
def option {α : Type} (r : Reader α) : Reader (Option α)
  | _, .null => .ok none
  | o, j => (r o j).map some

/-- The first of two readers that succeeds, the value being lent to both. -/
def either {α : Type} (union : String) (first second : Reader α) : Reader α := fun _ j =>
  match first .lent j with
  | .ok a => .ok a
  | .error _ =>
    match second .lent j with
    | .ok a => .ok a
    | .error _ => .error (.noVariant union)

/-- The value of a reader, changed. -/
def map {α β : Type} (f : α → β) (r : Reader α) : Reader β := fun o j => (r o j).map f

end Reader

end DocAtlas
