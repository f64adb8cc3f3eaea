import DocAtlas.Document.Mismatch
import DocAtlas.Json.Reader
import Mathlib.Data.String.Basic

/-!
Values inside a document, and the order of their locations.

`located` lists every value inside a document with its location, a value before what is inside it.
In a document that lists the keys of every object in ascending order, as every document does that is
read from a text (`ascending_parse`), a location leads to one value only, and the list has exactly
the values that locations lead to (`mem_located_iff`).

The order of the list is the lexicographic order of the locations (`pairwise_located`). That says
more than that an object comes before what is inside it: whatever stands between an object and
something inside it is inside it as well (`Location.prefix_of_between`).
-/

set_option autoImplicit false

namespace DocAtlas

/-! ## The order of locations -/

/-- Of two steps from one value, the one to the smaller index or key comes first. -/
def Step.Before : Step → Step → Prop
  | .index i, .index j => i < j
  | .key a, .key b => a < b
  | _, _ => False

/-- Of two steps not both come first. -/
theorem Step.Before.asymm {a b : Step} (h : a.Before b) : ¬ b.Before a := by
  intro h'
  match a, b, h, h' with
  | .index i, .index j, h, h' => exact Nat.lt_asymm h h'
  | .key a, .key b, h, h' => exact lt_asymm h h'

/-- No step comes before itself. -/
theorem Step.not_before_self (a : Step) : ¬ a.Before a := fun h => h.asymm h

/-- The order in which a document is read: an outer location before what lies inside it, and what
lies inside one part of a value before what lies inside the next. -/
def Location.Before : Location → Location → Prop := List.Lex Step.Before

namespace Location

/-- No location comes before itself. -/
theorem Before.ne {a b : Location} (h : a.Before b) : a ≠ b := by
  induction h with
  | nil => exact nofun
  | rel h =>
    rintro ⟨⟩
    exact Step.not_before_self _ h
  | cons _ ih =>
    intro heq
    exact ih (List.cons.inj heq).2

/-- **What stands between a location and one inside it lies inside it.** -/
theorem prefix_of_between {outer middle inner : Location} (h₁ : outer.Before middle)
    (h₂ : middle.Before inner) (hinside : outer <+: inner) : outer <+: middle := by
  induction h₁ generalizing inner with
  | nil => exact List.nil_prefix
  | rel h =>
    -- the middle one has left the way to the outer one, so it cannot stand before the inner one
    obtain ⟨rest, rfl⟩ := hinside
    cases h₂ with
    | rel h' => exact absurd h' h.asymm
    | cons _ => exact absurd h (Step.not_before_self _)
  | cons _ ih =>
    obtain ⟨rest, rfl⟩ := hinside
    cases h₂ with
    | rel h' => exact absurd h' (Step.not_before_self _)
    | cons h' => exact List.cons_prefix_cons.mpr ⟨rfl, ih h' (List.prefix_append _ _)⟩

/-- Nothing stands before a location and lies inside it. -/
theorem not_prefix_of_before {a b : Location} (h : a.Before b) : ¬ b <+: a := by
  induction h with
  | nil => exact fun hinside => List.cons_ne_nil _ _ (List.prefix_nil.mp hinside)
  | rel h =>
    intro hinside
    rw [(List.cons_prefix_cons.mp hinside).1] at h
    exact Step.not_before_self _ h
  | cons _ ih => exact fun hinside => ih (List.cons_prefix_cons.mp hinside).2

/-- One location is above another if it is a proper beginning of it. -/
theorem isAbove_iff {outer inner : Location} :
    outer.isAbove inner = true ↔ outer <+: inner ∧ outer ≠ inner := by
  rw [isAbove, Bool.and_eq_true, decide_eq_true_eq, List.isPrefixOf_iff_prefix]
  constructor
  · rintro ⟨hlength, hinside⟩
    refine ⟨hinside, ?_⟩
    rintro rfl
    exact Nat.lt_irrefl _ hlength
  · rintro ⟨hinside, hne⟩
    have hle := hinside.length_le
    have hlength : outer.length ≠ inner.length := fun heq => hne (hinside.eq_of_length heq)
    exact ⟨by omega, hinside⟩

end Location

namespace Json

/-! ## Documents in order -/

/-- The keys of every object in a value are in ascending order. -/
inductive Ascending : Json → Prop where
  | null : Ascending .null
  | bool (b : Bool) : Ascending (.bool b)
  | num (n : Number) : Ascending (.num n)
  | str (s : String) : Ascending (.str s)
  | arr {items : List Json} (inside : ∀ item ∈ items, Ascending item) : Ascending (.arr items)
  | obj {entries : List (String × Json)} (keys : (entries.map Prod.fst).Pairwise (· < ·))
      (inside : ∀ entry ∈ entries, Ascending entry.2) : Ascending (.obj entries)

attribute [simp] Ascending.null Ascending.bool Ascending.num Ascending.str

@[simp] theorem ascending_arr_iff {items : List Json} :
    (Json.arr items).Ascending ↔ ∀ item ∈ items, item.Ascending := by
  constructor
  · rintro ⟨⟩
    assumption
  · exact .arr

@[simp] theorem ascending_obj_iff {entries : List (String × Json)} :
    (Json.obj entries).Ascending ↔
      (entries.map Prod.fst).Pairwise (· < ·) ∧ ∀ entry ∈ entries, entry.2.Ascending := by
  constructor
  · rintro ⟨⟩
    exact ⟨by assumption, by assumption⟩
  · rintro ⟨keys, inside⟩
    exact .obj keys inside

/-- The steps into a value come in their order. -/
theorem Ascending.steps {j : Json} (h : j.Ascending) :
    (j.parts.map Prod.fst).Pairwise Step.Before := by
  cases h with
  | arr inside =>
    rename_i items
    -- the indices of an array ascend by themselves, whatever its items are
    have hindices : (items.zipIdx.map Prod.snd).Pairwise (· < ·) := by
      rw [List.zipIdx_map_snd]
      exact List.pairwise_lt_range'
    rw [parts, List.map_map]
    rw [List.pairwise_map] at hindices ⊢
    exact hindices
  | obj keys inside =>
    rw [parts, List.map_map]
    rw [List.pairwise_map] at keys ⊢
    exact keys
  | _ => exact List.Pairwise.nil

/-- The parts of a value in order are in order. -/
theorem Ascending.of_mem_parts {j : Json} (h : j.Ascending) {part : Step × Json}
    (hpart : part ∈ j.parts) :
    part.2.Ascending := by
  cases h with
  | arr inside =>
    obtain ⟨item, hitem, rfl⟩ := List.mem_map.mp hpart
    exact inside _ (List.fst_mem_of_mem_zipIdx hitem)
  | obj keys inside =>
    obtain ⟨entry, hentry, rfl⟩ := List.mem_map.mp hpart
    exact inside _ hentry
  | _ => exact absurd hpart List.not_mem_nil

/-! ## Following a location -/

/-- In a row of values the step to an index leads to the value that stands there. -/
theorem lookup_index (items : List Json) (start i : Nat) :
    ((items.zipIdx start).map fun item => (Step.index item.2, item.1)).lookup (.index (start + i))
      = items[i]? := by
  induction items generalizing start i with
  | nil => rfl
  | cons item items ih =>
    rw [List.zipIdx_cons, List.map_cons, List.lookup_cons]
    cases i with
    | zero => simp
    | succ i =>
      have hne : (Step.index (start + (i + 1)) == Step.index start) = false := by
        rw [beq_eq_false_iff_ne]
        intro heq
        have := Step.index.inj heq
        omega
      have hrest := ih (start + 1) i
      rw [show start + 1 + i = start + (i + 1) by omega] at hrest
      rw [hne, List.getElem?_cons_succ]
      exact hrest

/-- Among entries the step to a key leads to the first entry of the key. -/
theorem lookup_key (entries : List (String × Json)) (key : String) :
    (entries.map fun entry => (Step.key entry.1, entry.2)).lookup (.key key)
      = entries.lookup key := by
  induction entries with
  | nil => rfl
  | cons entry entries ih =>
    rw [List.map_cons, List.lookup_cons, List.lookup_cons, ih]
    by_cases hkey : key = entry.1
    · rw [hkey, beq_self_eq_true, beq_self_eq_true]
    · have hne : (Step.key key == Step.key entry.1) = false :=
        beq_eq_false_iff_ne.mpr fun heq => hkey (Step.key.inj heq)
      rw [hne, beq_eq_false_iff_ne.mpr hkey]

/-- Following a location goes through the part that the first step leads to. -/
theorem at?_cons (j : Json) (step : Step) (steps : Location) :
    j.at? (step :: steps) = (j.parts.lookup step).bind (·.at? steps) := by
  cases j with
  | arr items =>
    cases step with
    | index i =>
      have hlookup := lookup_index items 0 i
      rw [Nat.zero_add] at hlookup
      rw [parts, hlookup, at?]
    -- an array has no entries to step to
    | key key =>
      have hnone : (Json.arr items).parts.lookup (.key key) = none := by
        rw [List.lookup_eq_none_iff]
        intro part hpart
        obtain ⟨item, -, rfl⟩ := List.mem_map.mp hpart
        rfl
      rw [hnone]
      rfl
  | obj entries =>
    cases step with
    | key key => rw [parts, lookup_key, at?]
    | index i =>
      have hnone : (Json.obj entries).parts.lookup (.index i) = none := by
        rw [List.lookup_eq_none_iff]
        intro part hpart
        obtain ⟨entry, -, rfl⟩ := List.mem_map.mp hpart
        rfl
      rw [hnone]
      rfl
  | _ => cases step <;> rfl

/-- Where the steps into a value differ, the part behind a step is the one that the step leads
to. -/
theorem Ascending.lookup_eq_some_iff {j : Json} (h : j.Ascending) {part : Step × Json} :
    j.parts.lookup part.1 = some part.2 ↔ part ∈ j.parts := by
  constructor
  · intro hlookup
    obtain ⟨before, after, hparts, -⟩ := List.lookup_eq_some_iff.mp hlookup
    rw [hparts]
    exact List.mem_append_right _ List.mem_cons_self
  · intro hpart
    obtain ⟨before, after, hparts⟩ := List.append_of_mem hpart
    refine List.lookup_eq_some_iff.mpr ⟨before, after, hparts, ?_⟩
    intro other hother
    have hsteps := h.steps
    rw [hparts, List.map_append, List.map_cons, List.pairwise_append] at hsteps
    -- a part before it has another step, as the steps ascend
    have hbefore := hsteps.2.2 other.1 (List.mem_map_of_mem hother) part.1 List.mem_cons_self
    rw [bne_iff_ne]
    intro heq
    rw [heq] at hbefore
    exact Step.not_before_self _ hbefore

/-! ## All values of a document -/

/-- The parts of a value are smaller, so the recursion into them ends. -/
theorem sizeOf_lt_of_mem_parts {j : Json} {part : Step × Json} (h : part ∈ j.parts) :
    sizeOf part.2 < sizeOf j := by
  have hmem := List.sizeOf_lt_of_mem (List.mem_map_of_mem (f := Prod.snd) h)
  exact Nat.lt_of_lt_of_le hmem j.sizeOf_parts_le

/-- The values inside a value, each with its location, a value before what is inside it. -/
def located (j : Json) : List (Location × Json) :=
  ([], j) :: j.parts.attach.flatMap fun part =>
    part.1.2.located.map fun found => (part.1.1 :: found.1, found.2)
termination_by sizeOf j
decreasing_by exact sizeOf_lt_of_mem_parts part.2

/-- A value comes first, and then what is inside its parts, each location behind the step to the
part. -/
theorem located_eq (j : Json) : j.located
    = ([], j) :: j.parts.flatMap fun part => part.2.located.map fun found =>
      (part.1 :: found.1, found.2) := by
  rw [located]
  simp only [List.flatMap_subtype, List.unattach_attach]

/-- **The values inside a document are those that locations lead to.** -/
theorem Ascending.mem_located_iff {j : Json} (h : j.Ascending) {location : Location}
    {value : Json} :
    (location, value) ∈ j.located ↔ j.at? location = some value := by
  induction location generalizing j with
  | nil =>
    rw [located_eq, at?, List.mem_cons, List.mem_flatMap, Option.some.injEq]
    constructor
    · rintro (heq | ⟨part, -, hmem⟩)
      · exact (Prod.mk.inj heq).2.symm
      · obtain ⟨found, -, heq⟩ := List.mem_map.mp hmem
        cases heq
    · rintro rfl
      exact Or.inl rfl
  | cons step steps ih =>
    -- both sides go into a part, and the induction hypothesis is about that part
    rw [located_eq, at?_cons, List.mem_cons, List.mem_flatMap, Option.bind_eq_some_iff]
    constructor
    · rintro (heq | ⟨part, hpart, hmem⟩)
      · cases heq
      · obtain ⟨found, hfound, heq⟩ := List.mem_map.mp hmem
        cases heq
        exact ⟨part.2, h.lookup_eq_some_iff.mpr hpart, (ih (h.of_mem_parts hpart)).mp hfound⟩
    · rintro ⟨inner, hlookup, hat⟩
      have hpart : (step, inner) ∈ j.parts := h.lookup_eq_some_iff.mp hlookup
      have hinner := (ih (h.of_mem_parts hpart)).mpr hat
      exact Or.inr ⟨(step, inner), hpart, List.mem_map.mpr ⟨(steps, value), hinner, rfl⟩⟩

/-- **They are listed in the order of their locations.** The induction is on the document: the parts
of a value are listed in their order, and so is all that is inside each of them. -/
theorem Ascending.pairwise_located {j : Json} (h : j.Ascending) :
    j.located.Pairwise fun a b => Location.Before a.1 b.1 := by
  induction j using located.induct with
  | case1 j ih =>
    rw [located_eq, List.pairwise_cons, List.pairwise_flatMap]
    refine ⟨?_, ?_, ?_⟩
    · -- the value itself, at the empty location, comes before all others
      intro found hfound
      obtain ⟨part, -, hfound⟩ := List.mem_flatMap.mp hfound
      obtain ⟨inner, -, rfl⟩ := List.mem_map.mp hfound
      exact List.Lex.nil
    · -- inside one part
      intro part hpart
      have hinner := ih ⟨part, hpart⟩ (h.of_mem_parts hpart)
      rw [List.pairwise_map]
      exact hinner.imp List.Lex.cons
    · -- inside two parts, where the steps to them decide
      refine (List.pairwise_map.mp h.steps).imp ?_
      intro part later hstep a ha b hb
      obtain ⟨a', -, rfl⟩ := List.mem_map.mp ha
      obtain ⟨b', -, rfl⟩ := List.mem_map.mp hb
      exact List.Lex.rel hstep

/-! ## Documents that are read -/

/-- Inserting an entry adds nothing else. -/
theorem mem_insertEntry {key : String} {value : Json} {entries : List (String × Json)}
    {entry : String × Json} (h : entry ∈ insertEntry key value entries) :
    entry = (key, value) ∨ entry ∈ entries := by
  induction entries with
  | nil => exact Or.inl (List.mem_singleton.mp h)
  | cons head entries ih =>
    obtain ⟨k, v⟩ := head
    rw [insertEntry] at h
    split at h
    · exact List.mem_cons.mp h
    · split at h
      · exact (List.mem_cons.mp h).imp_right (List.mem_cons_of_mem _)
      · rcases List.mem_cons.mp h with rfl | h
        · exact Or.inr List.mem_cons_self
        · exact (ih h).imp_right (List.mem_cons_of_mem _)

/-- A new entry goes to its place. -/
theorem pairwise_insertEntry (key : String) (value : Json) {entries : List (String × Json)}
    (h : (entries.map Prod.fst).Pairwise (· < ·)) :
    ((insertEntry key value entries).map Prod.fst).Pairwise (· < ·) := by
  induction entries with
  | nil => exact List.pairwise_singleton _ _
  | cons head entries ih =>
    obtain ⟨k, v⟩ := head
    have hhead := (List.pairwise_cons.mp h).1
    have htail := (List.pairwise_cons.mp h).2
    rw [insertEntry]
    by_cases hlt : key < k
    · rw [if_pos hlt]
      refine List.pairwise_cons.mpr ⟨?_, h⟩
      intro other hother
      rcases List.mem_cons.mp hother with rfl | hother
      · exact hlt
      · exact lt_trans hlt (hhead other hother)
    · rw [if_neg hlt]
      -- an entry with the key is replaced, and else the new one belongs further behind
      by_cases heq : key = k
      · rw [if_pos heq, heq]
        exact h
      · rw [if_neg heq]
        refine List.pairwise_cons.mpr ⟨?_, ih htail⟩
        intro other hother
        obtain ⟨entry, hentry, rfl⟩ := List.mem_map.mp hother
        rcases mem_insertEntry hentry with rfl | hentry
        · exact lt_of_le_of_ne (not_lt.mp hlt) (Ne.symm heq)
        · exact hhead _ (List.mem_map_of_mem hentry)

/-- An object in order stays in order with a new entry. -/
theorem Ascending.insertEntry {entries : List (String × Json)} (h : (Json.obj entries).Ascending)
    (key : String) {value : Json} (hvalue : value.Ascending) :
    (Json.obj (Json.insertEntry key value entries)).Ascending := by
  cases h with
  | obj keys inside =>
    refine .obj (pairwise_insertEntry key value keys) ?_
    intro entry hentry
    rcases mem_insertEntry hentry with rfl | hentry
    · exact hvalue
    · exact inside entry hentry

/-- **An object that is made of entries in any order has its keys in ascending order.** -/
theorem ascending_ofEntries {entries : List (String × Json)}
    (h : ∀ entry ∈ entries, entry.2.Ascending) :
    (ofEntries entries).Ascending := by
  -- the entries that have been put in place stand in `done`
  suffices ∀ done, (Json.obj done).Ascending →
      (Json.obj (entries.foldl (fun acc entry => insertEntry entry.1 entry.2 acc) done)).Ascending
    from this [] (.obj List.Pairwise.nil nofun)
  induction entries with
  | nil => exact fun done hdone => hdone
  | cons entry entries ih =>
    intro done hdone
    have hentry := h entry List.mem_cons_self
    exact ih (fun other hother => h other (List.mem_cons_of_mem _ hother))
      _ (hdone.insertEntry entry.1 hentry)

end Json

/-- What has been read of an array or object is in order. -/
def Frame.Ascending : Frame → Prop
  | .list items => ∀ item ∈ items, item.Ascending
  | .object entries _ => ∀ entry ∈ entries, entry.2.Ascending

/-- A value without parts is in order. -/
theorem ascending_scanScalar {before : Cursor} {scanned : Scanned Json before}
    (h : scanScalar before = .ok scanned) :
    scanned.value.Ascending := by
  rw [scanScalar] at h
  split at h
  · cases h
  · dsimp only at h
    repeat' split at h
    all_goals cases h
    all_goals constructor

/-- **Reading keeps to the order.** Whatever the open frames have read, and the value that is handed
to them, is in order, and so is what they are closed to. -/
theorem ascending_read :
    (∀ frames cur, (∀ frame ∈ frames, frame.Ascending) → ∀ j, readValue frames cur = .ok j →
      j.Ascending)
    ∧ ∀ frames value cur, (∀ frame ∈ frames, frame.Ascending) → value.Ascending →
        ∀ j, finishValue frames value cur = .ok j → j.Ascending := by
  apply readValue.mutual_induct_unfolding
    (fun frames _ result => (∀ frame ∈ frames, frame.Ascending) → ∀ j, result = .ok j → j.Ascending)
    (fun frames value _ result => (∀ frame ∈ frames, frame.Ascending) → value.Ascending →
      ∀ j, result = .ok j → j.Ascending)
  case case2 =>
    -- an array without items
    intro frames cur _ _ _ _ _ _ _ _ _ ih hframes
    exact ih hframes (.arr nofun)
  case case3 =>
    -- the start of an array
    intro frames cur _ _ _ _ _ _ _ _ _ _ ih hframes
    exact ih (List.forall_mem_cons.mpr ⟨nofun, hframes⟩)
  case case5 =>
    -- an object without entries
    intro frames cur _ _ _ _ _ _ _ _ _ ih hframes
    exact ih hframes (.obj List.Pairwise.nil nofun)
  case case7 =>
    -- the first key of an object
    intro frames cur _ _ _ _ _ _ _ _ _ _ _ _ _ _ ih hframes
    exact ih (List.forall_mem_cons.mpr ⟨nofun, hframes⟩)
  case case9 =>
    -- a value that has no parts
    intro frames cur _ _ value after _ hscalar _ _ ih hframes
    exact ih hframes (ascending_scanScalar hscalar)
  case case10 =>
    -- no frame is open any more, so that the value is the document
    intro value cur _ _ _ hframes hvalue j heq
    cases heq
    exact hvalue
  case case13 =>
    -- the end of an array, whose items were collected from the last one on
    intro value cur _ _ items outer _ _ _ ih hframes hvalue
    obtain ⟨hitems, houter⟩ := List.forall_mem_cons.mp hframes
    refine ih houter (.arr fun item hitem => ?_)
    rcases List.mem_cons.mp (List.mem_reverse.mp hitem) with rfl | hitem
    · exact hvalue
    · exact hitems item hitem
  case case16 =>
    -- the value is an item, and another one follows
    intro value cur _ _ items outer _ _ _ _ _ _ _ _ _ _ _ ih hframes hvalue
    obtain ⟨hitems, houter⟩ := List.forall_mem_cons.mp hframes
    exact ih (List.forall_mem_cons.mpr ⟨List.forall_mem_cons.mpr ⟨hvalue, hitems⟩, houter⟩)
  case case19 =>
    -- the end of an object, where the entries are put in order
    intro value cur _ _ entries key outer _ _ _ ih hframes hvalue
    obtain ⟨hentries, houter⟩ := List.forall_mem_cons.mp hframes
    refine ih houter (Json.ascending_ofEntries fun entry hentry => ?_)
    rcases List.mem_cons.mp (List.mem_reverse.mp hentry) with rfl | hentry
    · exact hvalue
    · exact hentries entry hentry
  case case22 =>
    -- the value belongs to the last key, and another key follows
    intro value cur _ _ entries key outer _ text last _ _ _ _ _ _ _ _ ih hframes hvalue
    obtain ⟨hentries, houter⟩ := List.forall_mem_cons.mp hframes
    exact ih (List.forall_mem_cons.mpr ⟨List.forall_mem_cons.mpr ⟨hvalue, hentries⟩, houter⟩)
  -- everything else is a fault in the text
  all_goals
    intros
    rename_i hfault
    cases hfault

/-- **A document that is read from a text lists the keys of every object in ascending order.** -/
theorem Json.ascending_parse {text : String} {j : Json} (h : Json.parse text = .ok j) :
    j.Ascending :=
  ascending_read.1 [] (Cursor.start text) nofun j h

end DocAtlas
