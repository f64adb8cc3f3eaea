import DocAtlas.Proofs.SuffixTree
import Mathlib.Order.Bounds.Basic

/-!
Insertions that are refused, and what they leave behind.

A refused path leaves the tree as it was, so adding many pairs stops with the tree of those that
came before. Which pairs these are can be told without running anything: `Fresh t pairs` says that
no path among the pairs is stored and that no two of them are equal, and the pairs that get in are
the longest beginning of the list that is fresh (`Holds.addMany_eq`). The step behind it is
`Holds.fresh_cons`: after one insertion, what is fresh for the new tree is what would have been
fresh behind the inserted pair for the old one.
-/

set_option autoImplicit false

namespace DocAtlas.SuffixTree

variable {α : Type}

/-- The paths that have an entry. -/
def paths (t : SuffixTree α) : List Pathname := t.entries.map Prod.fst

/-- All pairs can be added: none of their paths has an entry, and no two of them are equal. -/
def Fresh (t : SuffixTree α) (pairs : List (Pathname × α)) : Prop :=
  (pairs.map Prod.fst).Nodup ∧ ∀ pair ∈ pairs, pair.1 ∉ t.paths

/-- The tree after one insertion for each pair. -/
def addEach (t : SuffixTree α) (pairs : List (Pathname × α)) : SuffixTree α :=
  pairs.foldl (fun t pair => (t.add pair.1 pair.2).1) t

/-- No pairs are fresh for every tree. -/
theorem fresh_nil (t : SuffixTree α) : t.Fresh [] := by
  refine ⟨List.nodup_nil, ?_⟩
  intro pair hpair
  exact absurd hpair List.not_mem_nil

namespace Holds

variable {t : SuffixTree α} {stored : List (Pathname × α)}

/-- The paths with an entry are those of the pairs that the tree holds. -/
theorem mem_paths_iff (h : Holds t stored) (path : Pathname) :
    path ∈ t.paths ↔ path ∈ stored.map Prod.fst :=
  (h.stored.map Prod.fst).mem_iff

/-- **A path is refused exactly if it has an entry,** and then the tree stays as it is. -/
theorem add_eq (h : Holds t stored) (path : Pathname) (value : α) :
    ((t.add path value).2 = some (.duplicate path.text) ↔ path ∈ t.paths)
      ∧ (t.add path value = (t, some (.duplicate path.text)) ↔ path ∈ t.paths)
      ∧ ((t.add path value).2 = none ↔ path ∉ t.paths) := by
  by_cases hpath : path ∈ t.paths
  · have hadd := h.add_taken ((h.mem_paths_iff path).mp hpath) value
    simp [hadd, hpath]
  · have hnone := (h.add_fresh (mt (h.mem_paths_iff path).mpr hpath) value).1
    have hne : t.add path value ≠ (t, some (.duplicate path.text)) := by
      intro heq
      rw [heq] at hnone
      cases hnone
    simp [hnone, hne, hpath]

/-- After an insertion the new path has an entry, and otherwise those that had one before. -/
theorem mem_paths_add (h : Holds t stored) {path : Pathname} (hpath : path ∉ t.paths) (value : α)
    (other : Pathname) :
    other ∈ (t.add path value).1.paths ↔ other ∈ t.paths ∨ other = path := by
  have hadded := (h.add_fresh (mt (h.mem_paths_iff path).mpr hpath) value).2
  rw [hadded.mem_paths_iff, h.mem_paths_iff, List.map_append, List.mem_append, List.map_singleton,
    List.mem_singleton]

/-- What is fresh after an insertion is what is fresh behind the inserted pair. -/
theorem fresh_cons (h : Holds t stored) {path : Pathname} (hpath : path ∉ t.paths) (value : α)
    (rest : List (Pathname × α)) :
    t.Fresh ((path, value) :: rest) ↔ (t.add path value).1.Fresh rest := by
  unfold Fresh
  rw [List.map_cons, List.nodup_cons, List.forall_mem_cons]
  constructor
  · rintro ⟨⟨hnew, hnodup⟩, -, hrest⟩
    refine ⟨hnodup, ?_⟩
    intro pair hpair hmem
    -- a path that has an entry now had one before, or is the one that was inserted
    rcases (h.mem_paths_add hpath value pair.1).mp hmem with hmem | heq
    · exact hrest pair hpair hmem
    · exact hnew (List.mem_map.mpr ⟨pair, hpair, heq⟩)
  · rintro ⟨hnodup, hrest⟩
    have hother : ∀ pair ∈ rest, pair.1 ∉ t.paths ∧ pair.1 ≠ path := by
      intro pair hpair
      rw [← not_or, ← h.mem_paths_add hpath value]
      exact hrest pair hpair
    refine ⟨⟨?_, hnodup⟩, hpath, fun pair hpair => (hother pair hpair).1⟩
    intro hmem
    obtain ⟨pair, hpair, heq⟩ := List.mem_map.mp hmem
    exact (hother pair hpair).2 heq

/-- **Adding many pairs adds the longest beginning of them that is fresh, and refuses the pair
behind it.** The induction is on the pairs, with the tree free: the first pair is refused, or it is
added and the rest meet the new tree. -/
theorem addMany_eq (h : Holds t stored) (pairs : List (Pathname × α)) :
    ∃ n, IsGreatest {n | n ≤ pairs.length ∧ t.Fresh (pairs.take n)} n
      ∧ t.addMany pairs
        = (t.addEach (pairs.take n), pairs[n]?.map fun pair => .duplicate pair.1.text) := by
  induction pairs generalizing t stored with
  | nil =>
    refine ⟨0, ⟨⟨Nat.le_refl 0, fresh_nil t⟩, ?_⟩, rfl⟩
    rintro n ⟨hn, -⟩
    exact hn
  | cons pair rest ih =>
    obtain ⟨path, value⟩ := pair
    by_cases hpath : path ∈ t.paths
    · -- the first path has an entry, so not even one pair is fresh
      refine ⟨0, ⟨⟨Nat.zero_le _, fresh_nil t⟩, ?_⟩, ?_⟩
      · rintro n ⟨-, -, hfresh⟩
        by_contra hpos
        obtain ⟨k, rfl⟩ := Nat.exists_eq_add_one.mpr (Nat.not_le.mp hpos)
        exact hfresh (path, value) List.mem_cons_self hpath
      · rw [SuffixTree.addMany, (h.add_eq path value).2.1.mpr hpath]
        rfl
    · -- the first pair gets in, and one more pair is fresh than for the new tree
      obtain ⟨hnone, hadded⟩ := h.add_fresh (mt (h.mem_paths_iff path).mpr hpath) value
      obtain ⟨n, ⟨⟨hle, hfresh⟩, hgreatest⟩, heq⟩ := ih hadded
      refine ⟨n + 1, ⟨⟨Nat.succ_le_succ hle, ?_⟩, ?_⟩, ?_⟩
      · rw [List.take_succ_cons, h.fresh_cons hpath]
        exact hfresh
      · rintro m ⟨hm, hmfresh⟩
        by_cases hzero : m = 0
        · omega
        · obtain ⟨k, rfl⟩ := Nat.exists_eq_add_one_of_ne_zero hzero
          rw [List.take_succ_cons, h.fresh_cons hpath] at hmfresh
          exact Nat.succ_le_succ (hgreatest ⟨Nat.le_of_succ_le_succ hm, hmfresh⟩)
      · have hstep : t.addMany ((path, value) :: rest) = (t.add path value).1.addMany rest := by
          rw [SuffixTree.addMany,
            show t.add path value = ((t.add path value).1, none) by rw [← hnone]]
        rw [hstep, heq]
        rfl

/-- All pairs get in exactly if they are fresh. -/
theorem addMany_eq_none_iff (h : Holds t stored) (pairs : List (Pathname × α)) :
    (t.addMany pairs).2 = none ↔ t.Fresh pairs := by
  obtain ⟨n, ⟨⟨hle, hfresh⟩, hgreatest⟩, heq⟩ := h.addMany_eq pairs
  rw [heq, Option.map_eq_none_iff, List.getElem?_eq_none_iff]
  constructor
  · intro hall
    rwa [List.take_of_length_le hall] at hfresh
  · intro hall
    refine hgreatest ⟨Nat.le_refl _, ?_⟩
    rwa [List.take_length]

end Holds

/-- **A refused insertion changes nothing, and adding many pairs stops cleanly.** After any calls on
the empty tree, the paths with an entry are those that were accepted. Exactly these are refused, and
then the tree is the same as before. Of many pairs the longest beginning is added in which no path
has an entry and none is repeated, as if by one insertion for each pair; if that is not all of them,
the error names the path right behind it. -/
theorem add_addMany_afterAll (calls : List (Call α)) :
    let t := (empty : SuffixTree α).afterAll calls
    t.paths.Perm (((empty : SuffixTree α).acceptedInAll calls).map Prod.fst)
      ∧ (∀ path value, ((t.add path value).2 = some (.duplicate path.text) ↔ path ∈ t.paths)
          ∧ (t.add path value = (t, some (.duplicate path.text)) ↔ path ∈ t.paths)
          ∧ ((t.add path value).2 = none ↔ path ∉ t.paths))
      ∧ ∀ pairs, ((t.addMany pairs).2 = none ↔ t.Fresh pairs)
          ∧ ∃ n, IsGreatest {n | n ≤ pairs.length ∧ t.Fresh (pairs.take n)} n
            ∧ t.addMany pairs
              = (t.addEach (pairs.take n), pairs[n]?.map fun pair => .duplicate pair.1.text) := by
  have h := holds_empty.afterAll (α := α) calls
  rw [List.nil_append] at h
  exact ⟨h.stored.map Prod.fst, h.add_eq,
    fun pairs => ⟨h.addMany_eq_none_iff pairs, h.addMany_eq pairs⟩⟩

end DocAtlas.SuffixTree
