import DocAtlas.SuffixTree.Basic
import Mathlib.Data.List.Sort
import Mathlib.Data.String.Basic

/-!
What a suffix tree holds, and that looking something up in it is a scan over what it holds.

The tree is a trie over reversed paths with a count in every node, and a lookup trusts both: the
walk along the suffix has to end above exactly the matching paths, and the count has to be their
number. The invariant `Sound` says so for one node, given the way that leads to it. From it follows
the one fact that everything else uses, `Sound.contents_filter`: the entries below the node at the
end of a way are the entries of the whole tree whose path continues that way.

These facts are about the recursion `contents`. A lookup goes through the entries with a stack and
passes over children that count nothing. In a sound tree there are none of those, so the walk comes
to the same entries, each as often, though in another order: one step keeps what is still to come
(`Sound.contents_perm`), and a run does so by induction (`unstack_perm`).

`Holds t pairs` is the interface for the rest of the library: `t` stores exactly these pairs, and
their paths are distinct. Insertion appends to the pairs (`Holds.add_fresh`) or refuses
(`Holds.add_taken`), and a lookup is the scan `scan pairs` (`Holds.get_eq_scan`). The main
statement, `get_afterAll`, is about any sequence of calls.
-/

set_option autoImplicit false

namespace DocAtlas.SuffixTree

variable {α : Type}

/-! ## The scan -/

/-- What a suffix matches among stored pairs: the pair with exactly that path if there is one, and
otherwise all pairs whose path ends with the suffix. -/
def hits (pairs : List (Pathname × α)) (suffix : Pathname) : List (Pathname × α) :=
  match pairs.find? fun pair => pair.1 = suffix with
  | some pair => [pair]
  | none => pairs.filter fun pair => suffix <:+ pair.1

/-- What a lookup answers, given what the suffix matches. -/
def verdict (suffix : Pathname) : List (Pathname × α) → Except LookupError α
  | [] => .error (.notFound suffix.text)
  | [(_, value)] => .ok value
  | several => .error (.ambiguous suffix.text ((several.map (·.1.text)).insertionSort (· ≤ ·)))

/-- A lookup without a tree: one look at every pair. -/
def scan (pairs : List (Pathname × α)) (suffix : Pathname) : Except LookupError α :=
  verdict suffix (hits pairs suffix)

/-- What a suffix matches is stored, and its path ends with the suffix. -/
theorem mem_hits {pairs : List (Pathname × α)} {suffix : Pathname} {pair : Pathname × α}
    (h : pair ∈ hits pairs suffix) : pair ∈ pairs ∧ suffix <:+ pair.1 := by
  rw [hits] at h
  split at h
  · rename_i found hfound
    rw [List.mem_singleton.mp h]
    have heq : found.1 = suffix := of_decide_eq_true (List.find?_some hfound :)
    exact ⟨List.mem_of_find?_eq_some hfound, heq ▸ List.suffix_refl _⟩
  · rw [List.mem_filter, decide_eq_true_eq] at h
    exact h

/-- Where there is no exact match, everything that ends with the suffix is a match. -/
theorem mem_hits_of_suffix {pairs : List (Pathname × α)} {suffix : Pathname}
    (hexact : suffix ∉ pairs.map Prod.fst) {pair : Pathname × α} (hmem : pair ∈ pairs)
    (hsuffix : suffix <:+ pair.1) : pair ∈ hits pairs suffix := by
  have hnone : (pairs.find? fun pair => pair.1 = suffix) = none := by
    rw [List.find?_eq_none]
    intro other hother heq
    exact hexact (List.mem_map.mpr ⟨other, hother, of_decide_eq_true heq⟩)
  rw [hits, hnone, List.mem_filter, decide_eq_true_eq]
  exact ⟨hmem, hsuffix⟩

/-- A suffix matches nothing exactly if no path ends with it. -/
theorem hits_eq_nil_iff {pairs : List (Pathname × α)} {suffix : Pathname} :
    hits pairs suffix = [] ↔ ∀ pair ∈ pairs, ¬ suffix <:+ pair.1 := by
  constructor
  · intro h pair hpair hsuffix
    rw [hits] at h
    -- an exact match would be a match
    split at h
    · cases h
    · exact List.filter_eq_nil_iff.mp h pair hpair (decide_eq_true hsuffix)
  · intro h
    refine List.eq_nil_iff_forall_not_mem.mpr ?_
    intro pair hpair
    exact h pair (mem_hits hpair).1 (mem_hits hpair).2

/-- Merging and inserting sort alike: texts that compare equal are equal. -/
theorem sortTexts_eq_insertionSort {a b : List String} (h : a.Perm b) :
    sortTexts a = b.insertionSort (· ≤ ·) := by
  -- the order of the merge sort is written with `<`
  have hle : (fun a b : String => !decide (b < a)) = fun a b => decide (a ≤ b) := by
    funext a b
    rw [← decide_not]
    exact decide_eq_decide.mpr not_lt
  have hsorted : (sortTexts a).Pairwise (· ≤ ·) := by
    rw [sortTexts, hle]
    exact List.pairwise_mergeSort' (· ≤ ·) a
  have hperm : (sortTexts a).Perm (b.insertionSort (· ≤ ·)) :=
    ((List.mergeSort_perm a _).trans h).trans (List.perm_insertionSort (· ≤ ·) b).symm
  exact hperm.eq_of_pairwise' hsorted (List.pairwise_insertionSort (· ≤ ·) b)

/-- The order of the matches does not matter. -/
theorem verdict_perm {suffix : Pathname} {a b : List (Pathname × α)} (h : a.Perm b) :
    verdict suffix a = verdict suffix b := by
  match a, b, h with
  | [], _, h => rw [List.nil_perm.mp h]
  | [pair], _, h => rw [List.singleton_perm.mp h]
  | _ :: _ :: _, [], h => exact absurd h.length_eq (by simp)
  | _ :: _ :: _, [_], h => exact absurd h.length_eq (by simp)
  -- of several matches only the sorted texts are shown
  | x :: y :: rest, x' :: y' :: rest', h =>
    have hmap := h.map (·.1.text)
    simp only [verdict]
    rw [← sortTexts_eq_insertionSort hmap, sortTexts_eq_insertionSort (List.Perm.refl _)]

/-! ## The invariant -/

mutual
/-- The entries at and below a node: its own, and then those of its children, one child after the
other. -/
def contents : SuffixTree α → List (Pathname × α)
  | ⟨entry, children, _⟩ => entry.toList ++ contentsBelow children
termination_by structural t => t
/-- The entries of the nodes of a list. -/
def contentsBelow : List (String × SuffixTree α) → List (Pathname × α)
  | [] => []
  | child :: children => contentsOfChild child ++ contentsBelow children
termination_by structural children => children
/-- The entries of a node under its segment. -/
def contentsOfChild : String × SuffixTree α → List (Pathname × α)
  | (_, t) => contents t
termination_by structural child => child
end

/-- The recursion over a list of children goes through them one by one. -/
theorem contentsBelow_eq (children : List (String × SuffixTree α)) :
    contentsBelow children = children.flatMap fun child => child.2.contents := by
  induction children with
  | nil => rfl
  | cons child children ih => rw [contentsBelow, ih, List.flatMap_cons, contentsOfChild]

/-- The entries of a node: its own, and then those of its children. -/
theorem contents_mk (entry : Option (Pathname × α)) (children : List (String × SuffixTree α))
    (count : Nat) :
    contents ⟨entry, children, count⟩
      = entry.toList ++ children.flatMap fun child => child.2.contents := by
  rw [contents, contentsBelow_eq]

/-- A node at the end of a way is as it should be: its entry has the path that the way spells
backwards, its children are one for each segment and none of them is empty, and its count is the
number of entries at and below it. -/
inductive Sound : List String → SuffixTree α → Prop where
  | node {way : List String} {entry : Option (Pathname × α)}
      {children : List (String × SuffixTree α)} {count : Nat}
      (stored : ∀ pair ∈ entry, pair.1.reverse = way)
      (keys : (children.map Prod.fst).Nodup)
      (below : ∀ child ∈ children, Sound (way ++ [child.1]) child.2)
      (occupied : ∀ child ∈ children, 0 < child.2.count)
      (counted : count = (contents ⟨entry, children, count⟩).length) :
      Sound way ⟨entry, children, count⟩

/-- An empty node is sound wherever it stands. -/
theorem sound_empty (way : List String) : Sound way (empty : SuffixTree α) := by
  refine .node ?_ List.nodup_nil ?_ ?_ rfl
  · intro pair hpair; cases hpair
  · intro child hchild; cases hchild
  · intro child hchild; cases hchild

namespace Sound

variable {way : List String} {t : SuffixTree α}

/-- The count of a sound node is right. -/
theorem count_eq (h : Sound way t) : t.count = t.contents.length := by
  cases h with
  | node _ _ _ _ counted => exact counted

/-- Every path at or below a node continues the way to it. -/
theorem continues_way (h : Sound way t) : ∀ pair ∈ t.contents, way <+: pair.1.reverse := by
  induction h with
  | node stored keys below occupied counted ih =>
    intro pair hpair
    rw [contents_mk, List.mem_append, List.mem_flatMap] at hpair
    rcases hpair with hown | ⟨child, hchild, hpair⟩
    · have hend : pair.1.reverse = _ := stored pair (Option.mem_toList.mp hown)
      exact hend ▸ List.prefix_rfl
    · exact (List.prefix_append _ _).trans (ih child hchild pair hpair)

/-- A path that ends where the way ends is the node's own entry: all others are longer. -/
theorem entry_of_mem (h : Sound way t) {pair : Pathname × α} (hmem : pair ∈ t.contents)
    (hway : pair.1.reverse = way) : t.entry = some pair := by
  cases h with
  | node stored keys below occupied counted =>
    rw [contents_mk, List.mem_append, List.mem_flatMap] at hmem
    rcases hmem with hown | ⟨child, hchild, hmem⟩
    · exact Option.mem_toList.mp hown
    · have hlong := ((below child hchild).continues_way pair hmem).length_le
      rw [hway, List.length_append, List.length_singleton] at hlong
      omega

/-- The node's own entry is among the entries. -/
theorem mem_of_entry {pair : Pathname × α} (hentry : t.entry = some pair) : pair ∈ t.contents := by
  obtain ⟨entry, children, count⟩ := t
  rw [contents_mk]
  exact List.mem_append_left _ (Option.mem_toList.mpr hentry)

/-- It has the path that the way to the node spells backwards. -/
theorem entry_way (h : Sound way t) {pair : Pathname × α} (hentry : t.entry = some pair) :
    pair.1.reverse = way := by
  cases h with
  | node stored _ _ _ _ => exact stored pair hentry

end Sound

/-! ## Walking down -/

/-- What is found under a key is there. -/
theorem mem_of_lookup {β : Type} {key : String} {value : β} {items : List (String × β)}
    (h : items.lookup key = some value) : (key, value) ∈ items := by
  obtain ⟨before, after, rfl, -⟩ := List.lookup_eq_some_iff.mp h
  exact List.mem_append_right _ List.mem_cons_self

/-- Of entries that are told apart by the segment that leads to them, those of one segment are the
entries of the child under it. -/
theorem flatMap_filter_lookup {p : Pathname × α → Bool} {segment : String}
    {children : List (String × SuffixTree α)} (keys : (children.map Prod.fst).Nodup)
    (hother : ∀ child ∈ children, child.1 ≠ segment → child.2.contents.filter p = []) :
    (children.flatMap fun child => child.2.contents.filter p)
      = ((children.lookup segment).map fun child => child.contents.filter p).getD [] := by
  induction children with
  | nil => rfl
  | cons child children ih =>
    obtain ⟨key, node⟩ := child
    rw [List.map_cons, List.nodup_cons] at keys
    have hrest := ih keys.2 fun c hc => hother c (List.mem_cons_of_mem _ hc)
    rw [List.flatMap_cons, hrest]
    by_cases hkey : key = segment
    · subst hkey
      -- no later child has the same key, so the lookup among them finds nothing
      have hnone : children.lookup key = none := by
        rw [List.lookup_eq_none_iff]
        intro c hc
        exact bne_iff_ne.mpr fun he => keys.1 (List.mem_map.mpr ⟨c, hc, he.symm⟩)
      rw [hnone, List.lookup_cons_self]
      simp
    · have hnil := hother (key, node) List.mem_cons_self hkey
      have hne : (segment == key) = false := beq_eq_false_iff_ne.mpr (Ne.symm hkey)
      rw [hnil, List.lookup_cons, hne]
      rfl

/-- Everything below the child under a segment goes on with that segment. -/
theorem Sound.filter_other {way rest : List String} {segment : String}
    {child : String × SuffixTree α} (h : Sound (way ++ [child.1]) child.2)
    (hne : child.1 ≠ segment) :
    (child.2.contents.filter fun pair => way ++ segment :: rest <+: pair.1.reverse) = [] := by
  rw [List.filter_eq_nil_iff]
  intro pair hpair hgoes
  have hchild := h.continues_way pair hpair
  have hgoes : way ++ [segment] <+: pair.1.reverse := by
    refine List.IsPrefix.trans ?_ (of_decide_eq_true hgoes)
    exact ⟨rest, (List.append_cons way segment rest).symm⟩
  -- both beginnings are of one length, so the segments are the same
  have heq := List.prefix_of_prefix_length_le hchild hgoes (by simp)
  have heq := heq.eq_of_length (by simp)
  exact hne (List.append_cancel_left heq |> List.singleton_inj.mp)

/-- **Walking down is filtering.** The entries below the node at the end of a way are the entries
whose path goes on along that way; where the walk ends early there are none. -/
theorem Sound.contents_filter {way : List String} {t : SuffixTree α} (h : Sound way t)
    (rest : List String) :
    (t.contents.filter fun pair => way ++ rest <+: pair.1.reverse)
      = ((findAlong rest t).map contents).getD [] := by
  induction rest generalizing way t with
  | nil =>
    have hall := h.continues_way
    rw [List.append_nil, findAlong, Option.map_some, Option.getD_some, List.filter_eq_self]
    intro pair hpair
    exact decide_eq_true (hall pair hpair)
  | cons segment rest ih =>
    cases h with
    | @node way entry children count stored keys below occupied counted =>
      -- the node's own entry ends too early
      have hown : (entry.toList.filter fun pair => way ++ segment :: rest <+: pair.1.reverse)
          = [] := by
        rw [List.filter_eq_nil_iff]
        intro pair hpair hgoes
        rw [stored pair (Option.mem_toList.mp hpair)] at hgoes
        have hlen := (of_decide_eq_true hgoes).length_le
        rw [List.length_append, List.length_cons] at hlen
        omega
      rw [contents_mk, List.filter_append, hown, List.nil_append, List.filter_flatMap,
        flatMap_filter_lookup keys fun child hchild hne => (below child hchild).filter_other hne,
        findAlong]
      cases hlookup : children.lookup segment with
      | none => rfl
      | some node =>
        have hmem : (segment, node) ∈ children := mem_of_lookup hlookup
        have hstep := ih (below _ hmem)
        rw [List.append_assoc, List.singleton_append] at hstep
        exact hstep

/-- The node at the end of a way is sound there. -/
theorem Sound.findAlong {way rest : List String} {t node : SuffixTree α} (h : Sound way t)
    (hfind : SuffixTree.findAlong rest t = some node) : Sound (way ++ rest) node := by
  induction rest generalizing way t with
  | nil =>
    rw [SuffixTree.findAlong, Option.some.injEq] at hfind
    rw [List.append_nil, ← hfind]
    exact h
  | cons segment rest ih =>
    cases h with
    | node stored keys below occupied counted =>
      rw [SuffixTree.findAlong, Option.bind_eq_some_iff] at hfind
      obtain ⟨child, hlookup, hfind⟩ := hfind
      have hstep := ih (below _ (mem_of_lookup hlookup)) hfind
      rwa [List.append_assoc, List.singleton_append] at hstep

/-! ## Insertion -/

/-- The children of a node after the one under a key has been changed: the others are as before. -/
theorem mem_alter {β : Type} {key : String} {fresh : β} {f : β → β} {items : List (String × β)}
    (keys : (items.map Prod.fst).Nodup) {item : String × β} (h : item ∈ alter key fresh f items) :
    (item ∈ items ∧ item.1 ≠ key) ∨ item = (key, f ((items.lookup key).getD fresh)) := by
  induction items with
  | nil =>
    rw [alter, List.mem_singleton] at h
    exact Or.inr h
  | cons head items ih =>
    obtain ⟨k, v⟩ := head
    rw [List.map_cons, List.nodup_cons] at keys
    -- the key is found here, or among the items behind
    by_cases hk : k = key
    · subst hk
      rw [alter, if_pos rfl, List.mem_cons] at h
      rw [List.lookup_cons_self]
      rcases h with rfl | h
      · exact Or.inr rfl
      · exact Or.inl ⟨List.mem_cons_of_mem _ h, fun he => keys.1 (List.mem_map.mpr ⟨item, h, he⟩)⟩
    · have hne : (key == k) = false := beq_eq_false_iff_ne.mpr (Ne.symm hk)
      rw [alter, if_neg hk, List.mem_cons] at h
      rw [List.lookup_cons, hne]
      rcases h with rfl | h
      · exact Or.inl ⟨List.mem_cons_self, hk⟩
      · rcases ih keys.2 h with ⟨hmem, hother⟩ | hsame
        · exact Or.inl ⟨List.mem_cons_of_mem _ hmem, hother⟩
        · exact Or.inr hsame

/-- Changing the child under a key adds no second child under any key. -/
theorem nodup_alter {β : Type} {key : String} {fresh : β} {f : β → β} {items : List (String × β)}
    (keys : (items.map Prod.fst).Nodup) : ((alter key fresh f items).map Prod.fst).Nodup := by
  induction items with
  | nil => exact List.nodup_singleton key
  | cons head items ih =>
    obtain ⟨k, v⟩ := head
    rw [List.map_cons, List.nodup_cons] at keys
    by_cases hk : k = key
    · rw [alter, if_pos hk, List.map_cons, List.nodup_cons]
      exact keys
    · rw [alter, if_neg hk, List.map_cons, List.nodup_cons]
      refine ⟨?_, ih keys.2⟩
      intro hmem
      obtain ⟨item, hitem, hfst⟩ := List.mem_map.mp hmem
      rcases mem_alter keys.2 hitem with ⟨hold, -⟩ | hnew
      · exact keys.1 (List.mem_map.mpr ⟨item, hold, hfst⟩)
      · rw [hnew] at hfst
        exact hk hfst.symm

/-- If the changed child has one entry more, so have all children together. -/
theorem flatMap_alter_perm {key : String} {f : SuffixTree α → SuffixTree α} {pair : Pathname × α}
    {children : List (String × SuffixTree α)}
    (hf : (f ((children.lookup key).getD empty)).contents.Perm
      (pair :: ((children.lookup key).getD empty).contents)) :
    ((alter key empty f children).flatMap fun child => child.2.contents).Perm
      (pair :: children.flatMap fun child => child.2.contents) := by
  induction children with
  | nil =>
    rw [alter, List.flatMap_cons, List.flatMap_nil, List.append_nil]
    exact hf
  | cons head children ih =>
    obtain ⟨k, node⟩ := head
    by_cases hk : k = key
    · subst hk
      rw [List.lookup_cons_self] at hf
      rw [alter, if_pos rfl, List.flatMap_cons, List.flatMap_cons]
      exact hf.append_right _
    · have hne : (key == k) = false := beq_eq_false_iff_ne.mpr (Ne.symm hk)
      rw [List.lookup_cons, hne] at hf
      rw [alter, if_neg hk, List.flatMap_cons, List.flatMap_cons]
      exact ((ih hf).append_left _).trans List.perm_middle

/-- The child that a way goes through is sound, and so is the empty one where there is none. -/
theorem sound_child {way : List String} {children : List (String × SuffixTree α)}
    (below : ∀ child ∈ children, Sound (way ++ [child.1]) child.2) (segment : String) :
    Sound (way ++ [segment]) ((children.lookup segment).getD empty) := by
  cases hlookup : children.lookup segment with
  | none => exact sound_empty _
  | some node => exact below _ (mem_of_lookup hlookup)

/-- Where a way ends without an entry, it does so from its first child on. -/
theorem entry_eq_none_below {segment : String} {rest : List String} {entry : Option (Pathname × α)}
    {children : List (String × SuffixTree α)} {count : Nat}
    (h : ∀ node, findAlong (segment :: rest) ⟨entry, children, count⟩ = some node →
      node.entry = none) (node : SuffixTree α)
    (hfind : findAlong rest ((children.lookup segment).getD empty) = some node) :
    node.entry = none := by
  cases hlookup : children.lookup segment with
  | none =>
    -- in an empty tree only the empty way leads somewhere, and there is no entry
    rw [hlookup, Option.getD_none] at hfind
    cases rest with
    | nil =>
      cases hfind
      rfl
    | cons _ _ => cases hfind
  | some child =>
    rw [hlookup, Option.getD_some] at hfind
    refine h node ?_
    rw [findAlong, hlookup, Option.bind_some, hfind]

/-- **Insertion adds one entry.** Along a way at whose end there is no entry yet, insertion keeps
the node sound and adds the pair to its entries. The induction is on the way, with the node and the
way to it free. -/
theorem Sound.insertAlong {path : Pathname} (value : α) {way rest : List String} {t : SuffixTree α}
    (h : Sound way t) (hpath : path.reverse = way ++ rest)
    (hfree : ∀ node, SuffixTree.findAlong rest t = some node → node.entry = none) :
    Sound way (SuffixTree.insertAlong path value rest t)
      ∧ (SuffixTree.insertAlong path value rest t).contents.Perm ((path, value) :: t.contents) := by
  induction rest generalizing way t with
  | nil =>
    cases h with
    | @node way entry children count stored keys below occupied counted =>
      have hentry : entry = none := hfree _ rfl
      subst hentry
      rw [List.append_nil] at hpath
      have hperm : (SuffixTree.insertAlong path value [] ⟨none, children, count⟩).contents.Perm
          ((path, value) :: (⟨none, children, count⟩ : SuffixTree α).contents) := by
        rw [SuffixTree.insertAlong, contents_mk, contents_mk]
        exact List.Perm.refl _
      refine ⟨?_, hperm⟩
      refine .node ?_ keys below occupied ?_
      · intro pair hpair
        cases hpair
        exact hpath
      · exact (congrArg (· + 1) counted).trans hperm.length_eq.symm
  | cons segment rest ih =>
    cases h with
    | @node way entry children count stored keys below occupied counted =>
      have hchild := sound_child below segment
      obtain ⟨hsound, hcontents⟩ :=
        ih hchild (by rw [hpath, List.append_cons]) (entry_eq_none_below hfree)
      have hperm : (SuffixTree.insertAlong path value (segment :: rest)
            ⟨entry, children, count⟩).contents.Perm
          ((path, value) :: (⟨entry, children, count⟩ : SuffixTree α).contents) := by
        rw [SuffixTree.insertAlong, contents_mk, contents_mk]
        exact ((flatMap_alter_perm hcontents).append_left _).trans List.perm_middle
      refine ⟨?_, hperm⟩
      refine .node stored (nodup_alter keys) ?_ ?_ ?_
      · intro child hmem
        rcases mem_alter keys hmem with ⟨hold, -⟩ | rfl
        · exact below child hold
        · exact hsound
      · intro child hmem
        rcases mem_alter keys hmem with ⟨hold, -⟩ | rfl
        · exact occupied child hold
        · rw [hsound.count_eq, hcontents.length_eq]
          exact Nat.succ_pos _
      · exact (congrArg (· + 1) counted).trans hperm.length_eq.symm

/-! ## The walk with a stack -/

/-- No child of a sound node is passed over, so all of them come onto the stack. -/
theorem Sound.occupied_perm {way : List String} {t : SuffixTree α} (h : Sound way t) :
    t.occupied.Perm (t.children.map Prod.snd) := by
  cases h with
  | @node _ entry children count stored keys below occupied counted =>
    have hall : (children.map Prod.snd).filter (fun node => 0 < node.count)
        = children.map Prod.snd := by
      refine List.filter_eq_self.mpr fun node hnode => ?_
      obtain ⟨child, hchild, rfl⟩ := List.mem_map.mp hnode
      exact decide_eq_true (occupied child hchild)
    rw [SuffixTree.occupied, hall]
    exact List.reverse_perm _

/-- What is on the stack for a sound node is sound in its turn. -/
theorem Sound.of_mem_occupied {way : List String} {t node : SuffixTree α} (h : Sound way t)
    (hnode : node ∈ t.occupied) : ∃ way', Sound way' node := by
  obtain ⟨child, hchild, rfl⟩ := List.mem_map.mp (h.occupied_perm.mem_iff.mp hnode)
  cases h with
  | node stored keys below occupied counted => exact ⟨_, below child hchild⟩

/-- **One step of the walk keeps what is still to come.** The entries of a sound node are its own
entry and the entries of the nodes that take its place on the stack. -/
theorem Sound.contents_perm {way : List String} {t : SuffixTree α} (h : Sound way t) :
    t.contents.Perm (t.entry.toList ++ t.occupied.flatMap contents) := by
  have hchildren := h.occupied_perm.symm.flatMap_right contents
  obtain ⟨entry, children, count⟩ := t
  rw [List.flatMap_map] at hchildren
  rw [contents_mk]
  exact hchildren.append_left _

/-- **A run comes to all entries of the nodes on the stack, each as often as it is there.** The
induction is on the run, and every node that comes onto the stack is sound where it stands. -/
theorem unstack_perm {stack : List (SuffixTree α)} (h : ∀ t ∈ stack, ∃ way, Sound way t) :
    (unstack stack).Perm (stack.flatMap contents) := by
  induction stack using unstack.induct with
  | case1 => rw [unstack, List.flatMap_nil]
  | case2 node rest ih =>
    obtain ⟨way, hnode⟩ := h node List.mem_cons_self
    have hstack : ∀ t ∈ node.occupied ++ rest, ∃ way, Sound way t := by
      intro t ht
      rcases List.mem_append.mp ht with ht | ht
      · exact hnode.of_mem_occupied ht
      · exact h t (List.mem_cons_of_mem _ ht)
    rw [unstack, List.flatMap_cons]
    have hrun := (ih hstack).append_left node.entry.toList
    rw [List.flatMap_append, ← List.append_assoc] at hrun
    exact hrun.trans (hnode.contents_perm.symm.append_right _)

/-- **The walk comes to exactly the entries at and below a sound node.** -/
theorem Sound.entries_perm {way : List String} {t : SuffixTree α} (h : Sound way t) :
    t.entries.Perm t.contents := by
  have hrun : (unstack [t]).Perm ([t].flatMap contents) := by
    apply unstack_perm
    intro node hnode
    rw [List.mem_singleton.mp hnode]
    exact ⟨way, h⟩
  rwa [List.flatMap_singleton] at hrun

/-- The count of a sound node is the number of entries that the walk comes to. -/
theorem Sound.count_eq_length_entries {way : List String} {t : SuffixTree α} (h : Sound way t) :
    t.count = t.entries.length :=
  h.count_eq.trans h.entries_perm.length_eq.symm

/-! ## What a tree holds -/

/-- The tree stores exactly these pairs, and no path twice. -/
structure Holds (t : SuffixTree α) (pairs : List (Pathname × α)) : Prop where
  sound : Sound [] t
  stored : t.entries.Perm pairs
  distinct : (pairs.map Prod.fst).Nodup

/-- The empty tree holds nothing. -/
theorem holds_empty : Holds (empty : SuffixTree α) [] :=
  ⟨sound_empty [], (sound_empty []).entries_perm, List.nodup_nil⟩

namespace Holds

variable {t : SuffixTree α} {pairs : List (Pathname × α)}

/-- The recursion comes to the stored pairs, too. -/
theorem contents_perm (h : Holds t pairs) : t.contents.Perm pairs :=
  h.sound.entries_perm.symm.trans h.stored

/-- The walk along a suffix ends above exactly the pairs whose path ends with it. -/
theorem contents_find (h : Holds t pairs) (suffix : Pathname) :
    (((t.find suffix).map contents).getD []).Perm (pairs.filter fun pair => suffix <:+ pair.1) := by
  have hwalk := h.sound.contents_filter suffix.reverse
  rw [List.nil_append] at hwalk
  rw [find, ← hwalk]
  -- reversed paths begin with the reversed suffix
  have hsame : (fun pair : Pathname × α => decide (suffix.reverse <+: pair.1.reverse))
      = fun pair => decide (suffix <:+ pair.1) := by
    funext pair
    exact decide_eq_decide.mpr List.reverse_prefix
  rw [hsame]
  exact h.contents_perm.filter _

/-- The walk over the node that is found comes to the pairs whose path ends with the suffix. -/
theorem entries_find (h : Holds t pairs) {suffix : Pathname} {node : SuffixTree α}
    (hfind : t.find suffix = some node) :
    node.entries.Perm (pairs.filter fun pair => suffix <:+ pair.1) := by
  have hcontents := h.contents_find suffix
  rw [hfind, Option.map_some, Option.getD_some] at hcontents
  exact (h.sound.findAlong hfind).entries_perm.trans hcontents

/-- The entry of the node at the end of the walk is the pair with exactly that path. -/
theorem entry_find (h : Holds t pairs) {suffix : Pathname} {node : SuffixTree α}
    (hfind : t.find suffix = some node) (pair : Pathname × α) :
    node.entry = some pair ↔ pair ∈ pairs ∧ pair.1 = suffix := by
  have hnode : Sound suffix.reverse node := h.sound.findAlong hfind
  have hcontents := h.contents_find suffix
  rw [hfind, Option.map_some, Option.getD_some] at hcontents
  constructor
  · intro hentry
    have hmem := hcontents.mem_iff.mp (Sound.mem_of_entry hentry)
    exact ⟨(List.mem_filter.mp hmem).1, List.reverse_injective (hnode.entry_way hentry)⟩
  · rintro ⟨hmem, rfl⟩
    refine hnode.entry_of_mem (hcontents.mem_iff.mpr ?_) rfl
    exact List.mem_filter.mpr ⟨hmem, decide_eq_true (List.suffix_refl _)⟩

/-- Where the walk ends early, no path ends with the suffix. -/
theorem not_suffix_of_find_eq_none (h : Holds t pairs) {suffix : Pathname}
    (hfind : t.find suffix = none) {pair : Pathname × α} (hmem : pair ∈ pairs) :
    ¬ suffix <:+ pair.1 := by
  intro hsuffix
  have hcontents := h.contents_find suffix
  rw [hfind, Option.map_none, Option.getD_none] at hcontents
  have hin : pair ∈ pairs.filter fun pair => suffix <:+ pair.1 :=
    List.mem_filter.mpr ⟨hmem, decide_eq_true hsuffix⟩
  rw [List.nil_perm.mp hcontents] at hin
  exact List.not_mem_nil hin

/-- A path is in the tree exactly if it is stored. -/
theorem contains_iff (h : Holds t pairs) (path : Pathname) :
    t.contains path = true ↔ path ∈ pairs.map Prod.fst := by
  rw [contains, List.mem_map]
  cases hfind : t.find path with
  | none =>
    simp only [Bool.false_eq_true, false_iff, not_exists, not_and]
    rintro pair hmem rfl
    exact h.not_suffix_of_find_eq_none hfind hmem (List.suffix_refl _)
  | some node =>
    simp only [Option.isSome_iff_exists]
    exact exists_congr (h.entry_find hfind)

/-- A path that is stored is refused, and the tree is not touched. -/
theorem add_taken (h : Holds t pairs) {path : Pathname} (hpath : path ∈ pairs.map Prod.fst)
    (value : α) :
    t.add path value = (t, some (.duplicate path.text)) := by
  rw [add, if_pos ((h.contains_iff path).mpr hpath)]

/-- A path that is not stored is accepted, and the tree holds one pair more. -/
theorem add_fresh (h : Holds t pairs) {path : Pathname} (hpath : path ∉ pairs.map Prod.fst)
    (value : α) :
    (t.add path value).2 = none ∧ Holds (t.add path value).1 (pairs ++ [(path, value)]) := by
  have hcontains : t.contains path ≠ true := fun hc => hpath ((h.contains_iff path).mp hc)
  -- an entry at the end of the way would have this path
  have hfree : ∀ node, findAlong path.reverse t = some node → node.entry = none := by
    intro node hfind
    rw [Option.eq_none_iff_forall_ne_some]
    intro pair hentry
    obtain ⟨hmem, hpair⟩ := (h.entry_find hfind pair).mp hentry
    exact hpath (List.mem_map.mpr ⟨pair, hmem, hpair⟩)
  obtain ⟨hsound, hcontents⟩ := h.sound.insertAlong value (List.nil_append _).symm hfree
  rw [add, if_neg hcontains]
  refine ⟨rfl, hsound, hsound.entries_perm.trans ?_, ?_⟩
  · exact (hcontents.trans (h.contents_perm.cons _)).trans (List.perm_append_singleton _ _).symm
  · rw [List.map_append, List.map_singleton, ← List.concat_eq_append]
    exact List.Nodup.concat hpath h.distinct

/-- The pair with exactly the path that is looked for, found by scanning. -/
theorem find?_eq_some_iff (h : Holds t pairs) (suffix : Pathname) (pair : Pathname × α) :
    (pairs.find? fun pair => pair.1 = suffix) = some pair ↔ pair ∈ pairs ∧ pair.1 = suffix := by
  constructor
  · intro hfound
    exact ⟨List.mem_of_find?_eq_some hfound, of_decide_eq_true (List.find?_some hfound :)⟩
  · rintro ⟨hmem, rfl⟩
    cases hfound : pairs.find? fun other => other.1 = pair.1 with
    | none =>
      have hno := List.find?_eq_none.mp hfound pair hmem
      exact absurd (decide_eq_true rfl) hno
    | some other =>
      have hother : other.1 = pair.1 := of_decide_eq_true (List.find?_some hfound :)
      rw [List.inj_on_of_nodup_map h.distinct (List.mem_of_find?_eq_some hfound) hmem hother]

/-- A stored path matches itself only. -/
theorem hits_of_mem (h : Holds t pairs) {pair : Pathname × α} (hmem : pair ∈ pairs) :
    hits pairs pair.1 = [pair] := by
  rw [hits, (h.find?_eq_some_iff pair.1 pair).mpr ⟨hmem, rfl⟩]

/-- **A lookup is a scan.** -/
theorem get_eq_scan (h : Holds t pairs) (suffix : Pathname) : t.get suffix = scan pairs suffix := by
  rw [get, scan, hits]
  cases hfind : t.find suffix with
  | none =>
    have hexact : (pairs.find? fun pair => pair.1 = suffix) = none := by
      rw [Option.eq_none_iff_forall_ne_some]
      intro pair hpair
      obtain ⟨hmem, rfl⟩ := (h.find?_eq_some_iff suffix pair).mp hpair
      exact h.not_suffix_of_find_eq_none hfind hmem (List.suffix_refl _)
    have hcontents := h.contents_find suffix
    rw [hfind, Option.map_none, Option.getD_none] at hcontents
    rw [hexact, List.nil_perm.mp hcontents]
    rfl
  | some node =>
    have hexact : (pairs.find? fun pair => pair.1 = suffix) = node.entry := by
      ext pair
      exact (h.find?_eq_some_iff suffix pair).trans (h.entry_find hfind pair).symm
    have hcount := (h.sound.findAlong hfind).count_eq_length_entries
    rw [hexact]
    simp only
    cases hentry : node.entry with
    | some pair => rfl
    | none =>
      -- the count is the number of entries, so the arms are the lengths zero, one and more
      simp only
      rw [← verdict_perm (h.entries_find hfind), hcount]
      match node.entries with
      | [] => rfl
      | [pair] => rfl
      | first :: second :: rest =>
        simp only [List.length_cons, verdict]
        rw [sortTexts_eq_insertionSort (List.Perm.refl _)]

end Holds

/-! ## Histories -/

/-- A call that may change a tree. -/
inductive Call (α : Type) where
  | add (path : Pathname) (value : α)
  | addMany (pairs : List (Pathname × α))

/-- The tree after a call, whether or not the call succeeds. -/
def after (t : SuffixTree α) : Call α → SuffixTree α
  | .add path value => (t.add path value).1
  | .addMany pairs => (t.addMany pairs).1

/-- The pairs whose insertion succeeds when they are added one by one up to the first that is
refused. -/
def accepted (t : SuffixTree α) : List (Pathname × α) → List (Pathname × α)
  | [] => []
  | (path, value) :: rest =>
    match t.add path value with
    | (t, none) => (path, value) :: t.accepted rest
    | (_, some _) => []

/-- The pairs whose insertion succeeds in a call. -/
def acceptedIn (t : SuffixTree α) : Call α → List (Pathname × α)
  | .add path value => t.accepted [(path, value)]
  | .addMany pairs => t.accepted pairs

/-- The tree after a sequence of calls. -/
def afterAll (t : SuffixTree α) : List (Call α) → SuffixTree α
  | [] => t
  | call :: calls => (t.after call).afterAll calls

/-- The pairs whose insertion succeeds in a sequence of calls, in the order of the insertions. -/
def acceptedInAll (t : SuffixTree α) : List (Call α) → List (Pathname × α)
  | [] => []
  | call :: calls => t.acceptedIn call ++ (t.after call).acceptedInAll calls

namespace Holds

variable {t : SuffixTree α} {pairs : List (Pathname × α)}

/-- Adding one by one keeps track of what is accepted. -/
theorem addMany (h : Holds t pairs) (more : List (Pathname × α)) :
    Holds (t.addMany more).1 (pairs ++ t.accepted more) := by
  induction more generalizing t pairs with
  | nil =>
    rw [SuffixTree.addMany, accepted, List.append_nil]
    exact h
  | cons pair rest ih =>
    obtain ⟨path, value⟩ := pair
    by_cases hpath : path ∈ pairs.map Prod.fst
    · rw [SuffixTree.addMany, accepted, h.add_taken hpath]
      rw [List.append_nil]
      exact h
    · obtain ⟨hnone, hadd⟩ := h.add_fresh hpath value
      have hadded : t.add path value = ((t.add path value).1, none) := by rw [← hnone]
      rw [SuffixTree.addMany, accepted, hadded]
      have hrest := ih hadd
      rw [List.append_assoc, List.singleton_append] at hrest
      exact hrest

/-- One call. -/
theorem after (h : Holds t pairs) (call : Call α) :
    Holds (t.after call) (pairs ++ t.acceptedIn call) := by
  cases call with
  | addMany more => exact h.addMany more
  | add path value =>
    have hone := h.addMany [(path, value)]
    have hsame : (t.addMany [(path, value)]).1 = (t.add path value).1 := by
      rw [SuffixTree.addMany]
      rcases hadd : t.add path value with ⟨t', _ | e⟩ <;> rfl
    rw [hsame] at hone
    exact hone

/-- Any number of calls. -/
theorem afterAll (h : Holds t pairs) (calls : List (Call α)) :
    Holds (t.afterAll calls) (pairs ++ t.acceptedInAll calls) := by
  induction calls generalizing t pairs with
  | nil =>
    rw [SuffixTree.afterAll, acceptedInAll, List.append_nil]
    exact h
  | cons call calls ih =>
    have hstep := ih (h.after call)
    rwa [List.append_assoc] at hstep

end Holds

/-- **Every history of insertions leaves a tree that answers like a scan.** Whatever calls are made
on the empty tree, looking a suffix up is the scan over the pairs that were accepted, and the next
insertion is refused exactly if its path is among theirs. -/
theorem get_afterAll (calls : List (Call α)) (suffix : Pathname) :
    ((empty : SuffixTree α).afterAll calls).get suffix = scan (empty.acceptedInAll calls) suffix
      ∧ ∀ path value, (((empty : SuffixTree α).afterAll calls).add path value).2
        = if path ∈ ((empty : SuffixTree α).acceptedInAll calls).map Prod.fst
          then some (.duplicate path.text) else none := by
  have h := holds_empty.afterAll (α := α) calls
  rw [List.nil_append] at h
  refine ⟨h.get_eq_scan suffix, ?_⟩
  intro path value
  by_cases hpath : path ∈ ((empty : SuffixTree α).acceptedInAll calls).map Prod.fst
  · rw [if_pos hpath, h.add_taken hpath]
  · rw [if_neg hpath]
    exact (h.add_fresh hpath value).1

end DocAtlas.SuffixTree
