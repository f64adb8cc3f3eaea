/-!
JSON values, as the reader keeps them.

A number is kept the way it was written: an integer that fits in 64 bits stays an integer,
everything else is a double. An object is its list of entries. A value read from text lists them by
ascending key with every key once, and a value built by this library lists them in the order in
which it prints them, so the one list serves both uses.
-/

set_option autoImplicit false

namespace DocAtlas

/-- A JSON number. An `int` lies between `-2^63` and `2^64 - 1`; no other integer is kept as one. -/
inductive Number where
  | int (n : Int)
  | double (x : Float)

/-- A JSON value. -/
inductive Json where
  | null
  | bool (b : Bool)
  | num (n : Number)
  | str (s : String)
  | arr (items : List Json)
  | obj (entries : List (String × Json))

instance : Inhabited Json := ⟨.null⟩

namespace Json

/-! ## Nesting -/

mutual
/-- How many arrays and objects enclose the innermost value, this one included. -/
def depth : Json → Nat
  | .null => 0
  | .bool _ => 0
  | .num _ => 0
  | .str _ => 0
  | .arr items => depthItems items + 1
  | .obj entries => depthEntries entries + 1
termination_by structural j => j
/-- The depth of the deepest item. -/
def depthItems : List Json → Nat
  | [] => 0
  | item :: items => max (depth item) (depthItems items)
termination_by structural items => items
/-- The depth of the deepest entry. -/
def depthEntries : List (String × Json) → Nat
  | [] => 0
  | entry :: entries => max (depthEntry entry) (depthEntries entries)
termination_by structural entries => entries
/-- The depth of an entry's value. -/
def depthEntry : String × Json → Nat
  | (_, value) => depth value
termination_by structural entry => entry
end

/-- An item lies at least one level below its array. -/
theorem depth_item_lt {items : List Json} {item : Json} (h : item ∈ items) :
    item.depth < (Json.arr items).depth := by
  suffices item.depth ≤ depthItems items by simpa [depth] using Nat.lt_succ_of_le this
  induction items with
  | nil => cases h
  | cons head tail ih =>
    simp only [depthItems]
    rcases List.mem_cons.1 h with rfl | h
    · exact Nat.le_max_left _ _
    · exact Nat.le_trans (ih h) (Nat.le_max_right _ _)

/-- An entry's value lies at least one level below its object. -/
theorem depth_entry_lt {entries : List (String × Json)} {key : String} {value : Json}
    (h : (key, value) ∈ entries) : value.depth < (Json.obj entries).depth := by
  suffices value.depth ≤ depthEntries entries by simpa [depth] using Nat.lt_succ_of_le this
  induction entries with
  | nil => cases h
  | cons head tail ih =>
    simp only [depthEntries]
    rcases List.mem_cons.1 h with rfl | h
    · exact Nat.le_max_left _ _
    · exact Nat.le_trans (ih h) (Nat.le_max_right _ _)

/-! ## Entries -/

/-- The value under a key, if the value is an object that has it. -/
def get? (key : String) : Json → Option Json
  | .obj entries => entries.lookup key
  | _ => none

/-- The text of a string value. -/
def asStr? : Json → Option String
  | .str s => some s
  | _ => none

/-- The number of a value that is an integer. -/
def asInt? : Json → Option Int
  | .num (.int n) => some n
  | _ => none

mutual
/-- The values that stand under a key anywhere in a value, from outside in. -/
def valuesUnder (key : String) : Json → List Json
  | .null => []
  | .bool _ => []
  | .num _ => []
  | .str _ => []
  | .arr items => valuesUnderItems key items
  | .obj entries => valuesUnderEntries key entries
termination_by structural j => j
/-- The values under a key in the items of an array. -/
def valuesUnderItems (key : String) : List Json → List Json
  | [] => []
  | item :: items => valuesUnder key item ++ valuesUnderItems key items
termination_by structural items => items
/-- The values under a key in the entries of an object. -/
def valuesUnderEntries (key : String) : List (String × Json) → List Json
  | [] => []
  | entry :: entries => valuesUnderEntry key entry ++ valuesUnderEntries key entries
termination_by structural entries => entries
/-- The values under a key in an entry, its own value among them. -/
def valuesUnderEntry (key : String) : String × Json → List Json
  | (k, value) => if k = key then value :: valuesUnder key value else valuesUnder key value
termination_by structural entry => entry
end

/-- Adds an entry to a list that is ascending by key, replacing the entry of an equal key. -/
def insertEntry (key : String) (value : Json) : List (String × Json) → List (String × Json)
  | [] => [(key, value)]
  | (k, v) :: rest =>
    if key < k then (key, value) :: (k, v) :: rest
    else if key = k then (key, value) :: rest
    else (k, v) :: insertEntry key value rest

/-- The object with these entries: ascending by key, the last of equal keys kept. -/
def ofEntries (entries : List (String × Json)) : Json :=
  .obj (entries.foldl (fun acc (key, value) => insertEntry key value acc) [])

/-- An optional value, absent written as `null`. -/
def ofOption {α : Type} (f : α → Json) : Option α → Json
  | none => .null
  | some a => f a

/-- A list of texts. -/
def ofStrings (texts : List String) : Json := .arr (texts.map .str)

/-- A natural number. -/
def ofNat (n : Nat) : Json := .num (.int n)

end Json

end DocAtlas
