import DocAtlas.Decode.Reader

/-!
Reading records.

A record lists its fields. From an object it takes the entries one by one in their order, so that
the first faulty entry decides the fault; entries that no field answers to are passed over. A field
that was required and not met is reported only after all entries are read, in the order of the
fields. From an array it takes the fields by position.

Some values are spread over one object in several records. Each record then takes its own entries,
one record after the other, and such a value cannot be given as an array: `entriesOf` stands before
them.
-/

set_option autoImplicit false

namespace DocAtlas

/-- What happens when a field is absent. -/
inductive Presence where
  /-- It must be there. -/
  | required
  /-- It may be left out of an object but not of an array. -/
  | nullable
  /-- It may be left out of both. -/
  | defaulted
  deriving DecidableEq, Repr

/-- A field of a record that is being put together as a `σ`. -/
structure Field (σ : Type) where
  name : String
  aliases : List String
  presence : Presence
  /-- Reads the field's value, and says how it goes into the record. -/
  store : Origin → Json → Except Fault (σ → σ)

namespace Field

variable {σ α : Type}

/-- A field under a name, with how its value goes into the record. -/
def ofReader (presence : Presence) (name : String) (r : Reader α) (set : α → σ → σ) : Field σ where
  name := name
  aliases := []
  presence := presence
  store o j := (r o j).map set

/-- A field that must be there. -/
def required (name : String) (r : Reader α) (set : α → σ → σ) : Field σ :=
  ofReader .required name r set

/-- A field that an object may leave out. -/
def nullable (name : String) (r : Reader α) (set : α → σ → σ) : Field σ :=
  ofReader .nullable name r set

/-- A field that may be left out. -/
def defaulted (name : String) (r : Reader α) (set : α → σ → σ) : Field σ :=
  ofReader .defaulted name r set

/-- The field, answering to a further name. -/
def orNamed (f : Field σ) (name : String) : Field σ := { f with aliases := name :: f.aliases }

/-- Whether an entry of this key is meant for the field. -/
def answersTo (f : Field σ) (key : String) : Bool := key == f.name || f.aliases.contains key

end Field

/-- A record: what it is called in messages, and its fields in the order of an array. -/
structure Record (σ : Type) where
  title : Expected
  fields : List (Field σ)

/-- A record under way, and the names of the fields met so far. -/
structure Draft (σ : Type) where
  value : σ
  seen : List String

namespace Record

variable {σ : Type}

/-- Takes in one entry. -/
def takeEntry (r : Record σ) (o : Origin) (d : Draft σ) (entry : String × Json) :
    Except Fault (Draft σ) :=
  match r.fields.find? (·.answersTo entry.1) with
  | none => .ok d
  | some f =>
    if f.name ∈ d.seen then .error (.duplicateField f.name)
    else
      match f.store o entry.2 with
      | .error e => .error e
      | .ok set => .ok ⟨set d.value, f.name :: d.seen⟩

/-- Takes in entries one after the other. -/
def takeEntries (r : Record σ) (o : Origin) (d : Draft σ) :
    List (String × Json) → Except Fault (Draft σ)
  | [] => .ok d
  | entry :: entries =>
    match r.takeEntry o d entry with
    | .error e => .error e
    | .ok d => r.takeEntries o d entries

/-- The record, once no entry is left. -/
def finish (r : Record σ) (d : Draft σ) : Except Fault σ :=
  match r.fields.find? (fun f => f.presence = .required && !d.seen.contains f.name) with
  | some f => .error (.missingField f.name)
  | none => .ok d.value

/-- Reads the fields from the entries of an object into a blank record. -/
def readEntries (r : Record σ) (o : Origin) (blank : σ) (entries : List (String × Json)) :
    Except Fault σ :=
  match r.takeEntries o ⟨blank, []⟩ entries with
  | .error e => .error e
  | .ok d => r.finish d

/-- Reads fields from items by position; `index` fields have been read before these. -/
def takeItems (r : Record σ) (o : Origin) (index : Nat) (value : σ) :
    List (Field σ) → List Json → Except Fault σ
  | [], [] => .ok value
  | [], extra =>
    .error (.invalidLength (index + extra.length)
      (match o with
      | .document => .fewerItems
      | _ => .itemsInSequence index))
  | f :: fields, [] =>
    if f.presence = .defaulted then r.takeItems o (index + 1) value fields []
    else .error (.invalidLength index (.itemsOf r.title r.fields.length))
  | f :: fields, item :: items =>
    match f.store o item with
    | .error e => .error e
    | .ok set => r.takeItems o (index + 1) (set value) fields items

/-- Reads a record from an object or an array. -/
def read (r : Record σ) (blank : σ) : Reader σ
  | o, .obj entries => r.readEntries o blank entries
  | o, .arr items => r.takeItems o 0 blank r.fields items
  | _, j => .error (.invalidType j r.title)

end Record

/-- The entries of an object; anything else is not what `title` says. -/
def entriesOf (title : Expected) : Json → Except Fault (List (String × Json))
  | .obj entries => .ok entries
  | j => .error (.invalidType j title)

end DocAtlas
