import DocAtlas.Index.Slot
import DocAtlas.Log.Logged

/-!
The index of a document: what is known about every id.

One walk over the slots of a project computes the place of each of them. The walk keeps the slots
that are still to be visited on a list, so a document may be nested to any depth; it visits a slot
before what is below it, in the order of the document. The index is what the visits with an id add
up to, and the project with its places filled in is what comes out when the visits are handed back
to its slots in the same order.
-/

set_option autoImplicit false

namespace DocAtlas

/-! ## Entries -/

/-- What is known about an id. -/
structure IndexEntry where
  kind : SlotKind
  name : String
  path : Pathname
  parent : Option Int
  filename : String
  /-- Declared outside the analyzed tree. -/
  external : Bool
  deriving DecidableEq, Repr

/-- What is known about each id, by the order in which the ids were met first. -/
structure Index where
  entries : List (Int × IndexEntry)
  deriving DecidableEq, Repr

namespace Index

/-- The index that knows nothing. -/
def empty : Index := ⟨[]⟩

/-- What is known about an id. -/
def get? (index : Index) (id : Int) : Option IndexEntry := index.entries.lookup id

/-- The number of ids. -/
def size (index : Index) : Nat := index.entries.length

/-- Whether no id is known. -/
def isEmpty (index : Index) : Bool := index.entries.isEmpty

/-- Puts an entry under an id, in place of an earlier one. -/
def insertEntry (id : Int) (entry : IndexEntry) : List (Int × IndexEntry) → List (Int × IndexEntry)
  | [] => [(id, entry)]
  | (i, e) :: rest => if i = id then (id, entry) :: rest else (i, e) :: insertEntry id entry rest

/-- Records an entry. A later one takes the place of an earlier one, which is worth telling. -/
def insert (index : Index) (id : Int) (entry : IndexEntry) : Logged Index :=
  let inserted : Index := ⟨insertEntry id entry index.entries⟩
  match index.get? id with
  | some previous => do
    Logged.log (.idSeenTwice id previous.kind.name)
    pure inserted
  | none => pure inserted

end Index

/-! ## The walk -/

/-- What a slot inherits from the slot above it. -/
structure Surroundings where
  id : Option Int
  kind : SlotKind
  place : Place
  properties : MemberProperties
  deriving DecidableEq, Repr

/-- What the declarations of a project inherit from it. -/
def Project.surroundings (p : Project) : Surroundings :=
  ⟨p.id, .project, ⟨[], ""⟩, p.flags.memberProperties⟩

namespace Slot

/-- Where a slot stands: in its own first source or else in the file of its surroundings, and at the
path of its own segments joined onto theirs. -/
def placeIn (s : Slot) (baseDir : String) (around : Surroundings) : Place :=
  let filename := match s.source? with
    | some source => source.fileName
    | none => around.place.filename
  ⟨Pathname.join (s.ownSegments baseDir) s.isModule s.isStatic around.kind.owner around.place.path
    filename, filename⟩

/-- What the slots below a slot inherit from it. -/
def surroundings (s : Slot) (place : Place) : Surroundings := ⟨s.id, s.kind, place, s.properties⟩

/-- What the index says about a slot that stands at a place. -/
def entryAt (s : Slot) (place : Place) (around : Surroundings) : IndexEntry where
  kind := s.kind
  name := s.name
  path := place.path
  parent := around.id
  filename := place.filename
  external := match s.source? with
    | some source => source.isExternal
    | none => false

end Slot

/-- A visit to a slot: its id, what the index says about it, where it stands, and how what it
belongs to stands to its owner. -/
structure Visit where
  id : Option Int
  entry : IndexEntry
  place : Place
  owner : MemberProperties

/-- The visit to a slot in its surroundings. -/
def Slot.visit (s : Slot) (baseDir : String) (around : Surroundings) : Visit :=
  let place := s.placeIn baseDir around
  ⟨s.id, s.entryAt place around, place, around.properties⟩

/-- The visits to pending slots, each slot before what is below it. -/
def visits (baseDir : String) (pending : List (Slot × Surroundings)) : List Visit :=
  match pending with
  | [] => []
  | (slot, around) :: rest =>
    let inner := slot.surroundings (slot.placeIn baseDir around)
    slot.visit baseDir around :: visits baseDir (slot.below.map (·, inner) ++ rest)
termination_by Slot.totalWeight (pending.map (·.1))
decreasing_by
  have h := Slot.totalWeight_below_lt slot
  simp only [List.map_append, List.map_map, List.map_cons, Slot.totalWeight_append,
    Slot.totalWeight_cons]
  have : List.map (Prod.fst ∘ fun x => (x, slot.surroundings (slot.placeIn baseDir around)))
      slot.below
      = slot.below := by
    simp [Function.comp_def]
  simp only [this]
  omega

/-- The visits to all slots of a project. -/
def Project.visits (p : Project) (baseDir : String) : List Visit :=
  DocAtlas.visits baseDir (p.children.map fun d => (.declaration d, p.surroundings))

/-! ## The index -/

/-- Records the visits that have an id. -/
def Index.record (index : Index) : List Visit → Logged Index
  | [] => pure index
  | visit :: rest =>
    match visit.id with
    | none => index.record rest
    | some id => do
      let index ← index.insert id visit.entry
      index.record rest

/-- The index with the project itself, if it has an id. -/
def Project.rootIndex (p : Project) : Index :=
  match p.id with
  | some id => ⟨[(id, ⟨.project, p.name.getD "", [], none, "", false⟩)]⟩
  | none => .empty

/-- The index of a project. -/
def Project.index (p : Project) (baseDir : String) : Logged Index := do
  let index ← p.rootIndex.record (p.visits baseDir)
  Logged.log (.indexPopulated index.size)
  pure index

end DocAtlas
