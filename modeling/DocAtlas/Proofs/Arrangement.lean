import DocAtlas.Json.Basic
import Mathlib.Data.List.Forall2
import Mathlib.Data.List.Nodup

/-!
JSON values up to the order of the entries in their objects.

The order in which an object lists its entries means nothing. `Rearranged` relates two values that
differ in nothing else: they have the same keys, and rearranged values under the same key. A value
whose objects have distinct keys (`DistinctKeys`) may be rearranged at will. In particular it may be
put into the order in which a reader of text keeps it, `ordered`: every object with its keys
ascending (`DistinctKeys.rearranged_ordered`).
-/

set_option autoImplicit false

namespace DocAtlas.Json

/-! ## Distinct keys -/

/-- No object in a value has a key twice. -/
inductive DistinctKeys : Json → Prop where
  | null : DistinctKeys .null
  | bool (b : Bool) : DistinctKeys (.bool b)
  | num (n : Number) : DistinctKeys (.num n)
  | str (s : String) : DistinctKeys (.str s)
  | arr {items : List Json} (inside : ∀ item ∈ items, DistinctKeys item) : DistinctKeys (.arr items)
  | obj {entries : List (String × Json)} (keys : (entries.map Prod.fst).Nodup)
      (inside : ∀ entry ∈ entries, DistinctKeys entry.2) : DistinctKeys (.obj entries)

attribute [simp] DistinctKeys.null DistinctKeys.bool DistinctKeys.num DistinctKeys.str

/-- An array has distinct keys if its items have. -/
@[simp] theorem distinctKeys_arr_iff {items : List Json} :
    (Json.arr items).DistinctKeys ↔ ∀ item ∈ items, item.DistinctKeys := by
  constructor
  · rintro ⟨⟩
    assumption
  · exact .arr

/-- An object has distinct keys if its own are distinct and its values have distinct keys. -/
@[simp] theorem distinctKeys_obj_iff {entries : List (String × Json)} :
    (Json.obj entries).DistinctKeys
      ↔ (entries.map Prod.fst).Nodup ∧ ∀ entry ∈ entries, entry.2.DistinctKeys := by
  constructor
  · rintro ⟨⟩
    exact ⟨by assumption, by assumption⟩
  · rintro ⟨keys, inside⟩
    exact .obj keys inside

/-- Under a key that is there once stands one value. -/
theorem value_eq_of_nodup {entries : List (String × Json)} (h : (entries.map Prod.fst).Nodup)
    {key : String} {value value' : Json} (hmem : (key, value) ∈ entries)
    (hmem' : (key, value') ∈ entries) : value = value' :=
  congrArg Prod.snd (List.inj_on_of_nodup_map h hmem hmem' rfl)

/-- Looking for a key that is there once finds its value. -/
theorem lookup_of_mem {entries : List (String × Json)} (h : (entries.map Prod.fst).Nodup)
    {key : String} {value : Json} (hmem : (key, value) ∈ entries) :
    entries.lookup key = some value := by
  cases hlookup : entries.lookup key with
  | none =>
    rw [List.lookup_eq_none_iff] at hlookup
    exact absurd (hlookup _ hmem) (by simp)
  | some found =>
    obtain ⟨front, back, hentries, -⟩ := List.lookup_eq_some_iff.mp hlookup
    have hfound : (key, found) ∈ entries := by
      rw [hentries]
      exact List.mem_append_right _ List.mem_cons_self
    rw [value_eq_of_nodup h hfound hmem]

/-! ## Rearranging -/

/-- The same value, with the entries of its objects in any order. -/
inductive Rearranged : Json → Json → Prop where
  | null : Rearranged .null .null
  | bool (b : Bool) : Rearranged (.bool b) (.bool b)
  | num (n : Number) : Rearranged (.num n) (.num n)
  | str (s : String) : Rearranged (.str s) (.str s)
  | arr {items items' : List Json} (length : items.length = items'.length)
      (inside : ∀ item item', (item, item') ∈ items.zip items' → Rearranged item item') :
      Rearranged (.arr items) (.arr items')
  | obj {entries entries' : List (String × Json)}
      (keys : (entries.map Prod.fst).Perm (entries'.map Prod.fst))
      (inside : ∀ key value value', (key, value) ∈ entries → (key, value') ∈ entries' →
        Rearranged value value') :
      Rearranged (.obj entries) (.obj entries')

/-- What stands under a key stands there after rearranging, rearranged itself. -/
theorem Rearranged.exists_mem {entries entries' : List (String × Json)}
    (h : (Json.obj entries).Rearranged (.obj entries')) {key : String} {value : Json}
    (hmem : (key, value) ∈ entries) :
    ∃ value', (key, value') ∈ entries' ∧ value.Rearranged value' := by
  cases h with
  | obj keys inside =>
    have hkey : key ∈ entries'.map Prod.fst := keys.mem_iff.mp (List.mem_map_of_mem hmem)
    obtain ⟨⟨_, value'⟩, hmem', rfl⟩ := List.mem_map.mp hkey
    exact ⟨value', hmem', inside _ value value' hmem hmem'⟩

/-- Rearranging keeps keys distinct. -/
theorem Rearranged.nodup {entries entries' : List (String × Json)}
    (h : (Json.obj entries).Rearranged (.obj entries')) (hkeys : (entries.map Prod.fst).Nodup) :
    (entries'.map Prod.fst).Nodup := by
  cases h with
  | obj keys inside => exact keys.nodup_iff.mp hkeys

/-- Items that are rearranged one by one make a rearranged array. -/
theorem Rearranged.arr_map {f : Json → Json} {items : List Json}
    (h : ∀ item ∈ items, item.Rearranged (f item)) :
    (Json.arr items).Rearranged (.arr (items.map f)) := by
  refine .arr (List.length_map _).symm ?_
  -- the items are paired with their images by their positions
  induction items with
  | nil => exact fun _ _ hmem => absurd hmem List.not_mem_nil
  | cons head items ih =>
    intro item item' hmem
    rw [List.map_cons, List.zip_cons_cons, List.mem_cons] at hmem
    rcases hmem with heq | hmem
    · obtain ⟨rfl, rfl⟩ := Prod.mk.inj heq
      exact h _ List.mem_cons_self
    · exact ih (fun other hother => h other (List.mem_cons_of_mem _ hother)) item item' hmem

/-- A value with distinct keys is one of its own rearrangements. It is not without that: a key that
is there twice would relate the two values under it. -/
theorem DistinctKeys.rearranged_self {j : Json} (h : j.DistinctKeys) : j.Rearranged j := by
  induction h with
  | null => exact .null
  | bool b => exact .bool b
  | num n => exact .num n
  | str s => exact .str s
  | @arr items inside ih =>
    have hitems := Rearranged.arr_map (f := id) ih
    rwa [List.map_id] at hitems
  | obj keys inside ih =>
    refine .obj (List.Perm.refl _) ?_
    intro key value value' hmem hmem'
    rw [← value_eq_of_nodup keys hmem hmem']
    exact ih _ hmem

/-! ## Ascending keys -/

mutual
/-- The value as it is kept by a reader: the keys of every object ascending, the last of equal keys
kept. -/
def ordered : Json → Json
  | .null => .null
  | .bool b => .bool b
  | .num n => .num n
  | .str s => .str s
  | .arr items => .arr (orderedItems items)
  | .obj entries => ofEntries (orderedEntries entries)
termination_by structural j => j
/-- The items of an array, each ordered. -/
def orderedItems : List Json → List Json
  | [] => []
  | item :: items => ordered item :: orderedItems items
termination_by structural items => items
/-- The entries of an object, with each value ordered. -/
def orderedEntries : List (String × Json) → List (String × Json)
  | [] => []
  | entry :: entries => orderedEntry entry :: orderedEntries entries
termination_by structural entries => entries
/-- An entry with its value ordered. -/
def orderedEntry : String × Json → String × Json
  | (key, value) => (key, ordered value)
termination_by structural entry => entry
end

theorem orderedItems_eq (items : List Json) : orderedItems items = items.map ordered := by
  induction items with
  | nil => rfl
  | cons item items ih => rw [orderedItems, ih, List.map_cons]

theorem orderedEntries_eq (entries : List (String × Json)) :
    orderedEntries entries = entries.map fun entry => (entry.1, entry.2.ordered) := by
  induction entries with
  | nil => rfl
  | cons entry entries ih => rw [orderedEntries, ih, List.map_cons, orderedEntry]

/-- A new key is put somewhere among the entries. -/
theorem insertEntry_perm {key : String} (value : Json) {entries : List (String × Json)}
    (h : key ∉ entries.map Prod.fst) :
    (insertEntry key value entries).Perm ((key, value) :: entries) := by
  induction entries with
  | nil => exact List.Perm.refl _
  | cons head entries ih =>
    obtain ⟨k, v⟩ := head
    rw [List.map_cons, List.mem_cons, not_or] at h
    rw [insertEntry]
    -- it is put in front of the first greater key; its own key does not turn up
    by_cases hlt : key < k
    · rw [if_pos hlt]
    · rw [if_neg hlt, if_neg h.1]
      exact ((ih h.2).cons (k, v)).trans (List.Perm.swap _ _ _)

/-- Putting entries in order keeps them, if their keys are distinct. -/
theorem ofEntries_perm {entries : List (String × Json)} (h : (entries.map Prod.fst).Nodup) :
    ∃ entries', ofEntries entries = .obj entries' ∧ entries'.Perm entries := by
  -- the entries that have been put in place stand in `done`
  suffices ∀ done : List (String × Json), ((done ++ entries).map Prod.fst).Nodup →
      (entries.foldl (fun acc entry => insertEntry entry.1 entry.2 acc) done).Perm
        (done ++ entries) from
    ⟨_, rfl, this [] h⟩
  clear h
  induction entries with
  | nil =>
    intro done _
    rw [List.append_nil]
    exact List.Perm.refl _
  | cons entry entries ih =>
    intro done hkeys
    -- the key is new to what is in place, so no entry is replaced
    have hnew : entry.1 ∉ done.map Prod.fst := by
      rw [List.map_append, List.map_cons] at hkeys
      intro hmem
      exact (List.nodup_append.mp hkeys).2.2 _ hmem _ List.mem_cons_self rfl
    have hinsert : (insertEntry entry.1 entry.2 done ++ entries).Perm (done ++ entry :: entries) :=
      ((insertEntry_perm entry.2 hnew).append_right entries).trans List.perm_middle.symm
    exact (ih _ ((hinsert.map Prod.fst).nodup_iff.mpr hkeys)).trans hinsert

/-- **A value whose keys are distinct is rearranged by putting its keys in order.** -/
theorem DistinctKeys.rearranged_ordered {j : Json} (h : j.DistinctKeys) :
    j.Rearranged j.ordered := by
  induction h with
  | null => exact .null
  | bool b => exact .bool b
  | num n => exact .num n
  | str s => exact .str s
  | arr inside ih =>
    rw [ordered, orderedItems_eq]
    exact .arr_map ih
  | @obj entries keys inside ih =>
    have hsame : (entries.map fun entry => (entry.1, entry.2.ordered)).map Prod.fst
        = entries.map Prod.fst := by
      rw [List.map_map]
      rfl
    -- ordering the values leaves the keys as they are, so the entries can be put in place
    obtain ⟨entries', hordered, hperm⟩ := ofEntries_perm (hsame ▸ keys)
    rw [ordered, orderedEntries_eq, hordered]
    refine .obj ?_ ?_
    · rw [← hsame]
      exact (hperm.map Prod.fst).symm
    · intro key value value' hmem hmem'
      obtain ⟨⟨_, original⟩, horiginal, heq⟩ := List.mem_map.mp (hperm.mem_iff.mp hmem')
      obtain ⟨rfl, rfl⟩ := Prod.mk.inj heq
      rw [value_eq_of_nodup keys hmem horiginal]
      exact ih _ horiginal

end DocAtlas.Json
