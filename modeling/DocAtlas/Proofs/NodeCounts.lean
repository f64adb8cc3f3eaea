import DocAtlas.Proofs.SuffixTree
import Mathlib.Data.Set.Card

/-!
What the nodes of a suffix tree say about the entries below them.

`At t way node` is the tree seen from outside: the node stands at the end of the way, each segment
of which leads to some child. In a sound tree there is one child for each segment, so this is where
a lookup comes to (`Sound.at_iff`), and every node is sound in its place. That the counts and the
stored paths are right at every node then follows from the facts about walking down: the entries of
a node are the entries of the nodes at and below it, each of them once (`Sound.mem_entries_iff`,
`Holds.nodup_paths`), and the count is their number (`Sound.count_eq_ncard`).

So a lookup can trust the counts. A node without entries is the root of an empty tree, and a node
that counts one entry has one (`counts_afterAll`).
-/

set_option autoImplicit false

namespace DocAtlas.SuffixTree

variable {α : Type}

/-- The node stands at the end of a way through the tree, whose segments lead from a node to one of
its children. -/
inductive At : SuffixTree α → List String → SuffixTree α → Prop where
  | here (t : SuffixTree α) : At t [] t
  | down {t child node : SuffixTree α} {segment : String} {way : List String}
      (first : (segment, child) ∈ t.children) (rest : At child way node) :
      At t (segment :: way) node

/-- The pair is the entry of a node at or below this one. -/
def Stores (t : SuffixTree α) (pair : Pathname × α) : Prop :=
  ∃ way node, t.At way node ∧ node.entry = some pair

/-! ## Nodes in their places -/

/-- Among items with different keys, each is found by its key. -/
theorem lookup_eq_some_of_mem {β : Type} {items : List (String × β)}
    (keys : (items.map Prod.fst).Nodup) {key : String} {value : β} (h : (key, value) ∈ items) :
    items.lookup key = some value := by
  obtain ⟨before, after, rfl⟩ := List.append_of_mem h
  refine List.lookup_eq_some_iff.mpr ⟨before, after, rfl, ?_⟩
  intro item hitem
  rw [List.map_append, List.nodup_append] at keys
  exact bne_iff_ne.mpr (keys.2.2 item.1 (List.mem_map_of_mem hitem) key (by simp)).symm

namespace Sound

variable {way rest : List String} {t node : SuffixTree α}

/-- **The node at the end of a way is the one that a walk along it comes to.** -/
theorem at_iff (h : Sound way t) : t.At rest node ↔ SuffixTree.findAlong rest t = some node := by
  constructor
  · intro hat
    induction hat generalizing way with
    | here t => rfl
    | down first _ ih =>
      cases h with
      | node stored keys below occupied counted =>
        rw [SuffixTree.findAlong, lookup_eq_some_of_mem keys first, Option.bind_some]
        exact ih (below _ first)
  · intro hfind
    induction rest generalizing way t with
    | nil =>
      rw [SuffixTree.findAlong, Option.some.injEq] at hfind
      exact hfind ▸ .here t
    | cons segment rest ih =>
      rw [SuffixTree.findAlong, Option.bind_eq_some_iff] at hfind
      obtain ⟨child, hlookup, hfind⟩ := hfind
      have hmem := mem_of_lookup hlookup
      cases h with
      | node stored keys below occupied counted => exact .down hmem (ih (below _ hmem) hfind)

/-- Every node of a sound tree is sound in its place. -/
theorem of_at (h : Sound way t) (hat : t.At rest node) : Sound (way ++ rest) node :=
  h.findAlong (h.at_iff.mp hat)

/-- The entries of a node are among those of the tree. -/
theorem contents_sublist (h : Sound way t) (hat : t.At rest node) :
    node.contents.Sublist t.contents := by
  have hfilter := h.contents_filter rest
  rw [h.at_iff.mp hat, Option.map_some, Option.getD_some] at hfilter
  exact hfilter ▸ List.filter_sublist

/-- Everything below the root counts an entry: it was put there to lead to one. -/
theorem count_pos (h : Sound way t) (hat : t.At rest node) (hrest : rest ≠ []) :
    0 < node.count := by
  induction hat generalizing way with
  | here t => exact absurd rfl hrest
  | @down t child node segment more first rest ih =>
    cases h with
    | node stored keys below occupied counted =>
      -- the child is the node, or the node is further below
      cases rest with
      | here => exact occupied _ first
      | down next more => exact ih (below _ first) (List.cons_ne_nil _ _)

/-! ## Entries -/

/-- **The entries of a node are those of the nodes at and below it.** A path tells the way to its
node, so the entry that has it is found by walking that way. -/
theorem mem_entries_iff (h : Sound way t) (pair : Pathname × α) :
    pair ∈ t.entries ↔ t.Stores pair := by
  rw [h.entries_perm.mem_iff]
  constructor
  · intro hmem
    obtain ⟨rest, hrest⟩ := h.continues_way pair hmem
    -- the path is among those that go on from the node at the end of its own way
    have hgoes : pair ∈ t.contents.filter fun pair => way ++ rest <+: pair.1.reverse :=
      List.mem_filter.mpr ⟨hmem, decide_eq_true (hrest ▸ List.prefix_rfl)⟩
    rw [h.contents_filter rest] at hgoes
    cases hfind : SuffixTree.findAlong rest t with
    | none =>
      rw [hfind] at hgoes
      exact absurd hgoes List.not_mem_nil
    | some node =>
      rw [hfind] at hgoes
      exact ⟨rest, node, h.at_iff.mpr hfind, (h.findAlong hfind).entry_of_mem hgoes hrest.symm⟩
  · rintro ⟨rest, node, hat, hentry⟩
    exact (h.contents_sublist hat).subset (mem_of_entry hentry)

/-- The count is the number of entries of the nodes at and below the node. -/
theorem count_eq_ncard (h : Sound way t) (hnodup : (t.entries.map Prod.fst).Nodup) :
    t.count = {pair | t.Stores pair}.ncard := by
  classical
  -- what is stored is a finite set, as it is listed by the entries
  have hset : {pair | t.Stores pair} = (t.entries.toFinset : Set (Pathname × α)) := by
    ext pair
    rw [List.coe_toFinset]
    exact (h.mem_entries_iff pair).symm
  rw [hset, Set.ncard_coe_finset, List.toFinset_card_of_nodup hnodup.of_map,
    h.count_eq_length_entries]

end Sound

namespace Holds

variable {t node : SuffixTree α} {pairs : List (Pathname × α)} {way : List String}

/-- No path turns up twice among the entries of a node. -/
theorem nodup_paths (h : Holds t pairs) (hat : t.At way node) :
    (node.entries.map Prod.fst).Nodup := by
  have hall : (t.contents.map Prod.fst).Nodup :=
    (h.contents_perm.map Prod.fst).nodup_iff.mpr h.distinct
  have hnode : (node.contents.map Prod.fst).Nodup :=
    hall.sublist ((h.sound.contents_sublist hat).map Prod.fst)
  exact ((h.sound.of_at hat).entries_perm.map Prod.fst).nodup_iff.mpr hnode

/-- The size of a tree is the number of pairs that it holds. -/
theorem size_eq (h : Holds t pairs) : t.size = pairs.length :=
  h.sound.count_eq_length_entries.trans h.stored.length_eq

/-- Looking for a suffix comes to the node at the end of the way that is the suffix backwards. -/
theorem find_eq_some_iff (h : Holds t pairs) (suffix : Pathname) :
    t.find suffix = some node ↔ t.At suffix.reverse node :=
  h.sound.at_iff.symm

/-- Where a lookup finds a node that counts nothing, it stands at the root of an empty tree. -/
theorem eq_root_of_count_eq_zero (h : Holds t pairs) {suffix : Pathname}
    (hfind : t.find suffix = some node) (hcount : node.count = 0) :
    suffix = [] ∧ node = t ∧ t.isEmpty = true := by
  have hat := (h.find_eq_some_iff suffix).mp hfind
  by_cases hsuffix : suffix = []
  · subst hsuffix
    cases hat
    exact ⟨rfl, rfl, beq_iff_eq.mpr hcount⟩
  · have hpos := h.sound.count_pos hat (mt List.reverse_eq_nil_iff.mp hsuffix)
    omega

/-- Where it finds a node that counts one entry, there is one, and that is the answer. -/
theorem get_of_count_eq_one (h : Holds t pairs) {suffix : Pathname}
    (hfind : t.find suffix = some node) (hcount : node.count = 1) :
    ∃ path value, node.entries = [(path, value)] ∧ t.get suffix = .ok value := by
  have hsound := h.sound.of_at ((h.find_eq_some_iff suffix).mp hfind)
  obtain ⟨⟨path, value⟩, hone⟩ :=
    List.length_eq_one_iff.mp (hsound.count_eq_length_entries.symm.trans hcount)
  refine ⟨path, value, hone, ?_⟩
  rw [get, hfind]
  cases hentry : node.entry with
  | none => simp only [hentry, hcount, hone]
  | some own =>
    -- an entry of the node itself is the one that it counts
    have hown := hsound.entries_perm.mem_iff.mpr (Sound.mem_of_entry hentry)
    rw [hone, List.mem_singleton] at hown
    simp only [hentry, hown]

end Holds

/-- **The counts and the stored paths of a tree are always right.** After any calls on the empty
tree, each node counts the entries at and below it, and each but the root at least one. The path of
a node's entry is the way to the node backwards. Going through the entries of a node comes to each
entry at and below it once. What is stored in the tree are the pairs that were accepted, no two of
them with one path, and the size of the tree is their number. A lookup therefore meets a node that
counts nothing only at the root of an empty tree, and always finds the entry of a node that counts
one. -/
theorem counts_afterAll (calls : List (Call α)) :
    let t := (empty : SuffixTree α).afterAll calls
    let accepted := (empty : SuffixTree α).acceptedInAll calls
    (∀ way node, t.At way node →
        node.count = {pair | node.Stores pair}.ncard
          ∧ (way ≠ [] → 1 ≤ node.count)
          ∧ (∀ path value, node.entry = some (path, value) → path = way.reverse)
          ∧ (∀ pair, pair ∈ node.entries ↔ node.Stores pair)
          ∧ (node.entries.map Prod.fst).Nodup)
      ∧ (∀ pair, pair ∈ accepted ↔ t.Stores pair)
      ∧ (accepted.map Prod.fst).Nodup
      ∧ t.size = accepted.length
      ∧ ∀ suffix node, t.find suffix = some node →
          t.At suffix.reverse node
            ∧ (node.count = 0 → suffix = [] ∧ node = t ∧ t.isEmpty = true)
            ∧ (node.count = 1 → ∃ path value, node.entries = [(path, value)]
              ∧ t.get suffix = .ok value) := by
  have h := holds_empty.afterAll (α := α) calls
  rw [List.nil_append] at h
  refine ⟨?_, ?_, h.distinct, h.size_eq, ?_⟩
  · intro way node hat
    have hsound : Sound way node := h.sound.of_at hat
    have hnodup := h.nodup_paths hat
    refine ⟨hsound.count_eq_ncard hnodup, h.sound.count_pos hat, ?_, hsound.mem_entries_iff, hnodup⟩
    intro path value hentry
    rw [← hsound.entry_way hentry, List.reverse_reverse]
  · intro pair
    rw [← h.stored.mem_iff]
    exact h.sound.mem_entries_iff pair
  · intro suffix node hfind
    exact ⟨(h.find_eq_some_iff suffix).mp hfind, h.eq_root_of_count_eq_zero hfind,
      h.get_of_count_eq_one hfind⟩

end DocAtlas.SuffixTree
