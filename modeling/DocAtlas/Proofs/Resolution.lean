import DocAtlas.Proofs.Lookup
import Mathlib.Data.Set.Insert

/-!
Resolving a text is a scan over the ways to split it.

What one way to split a text means is said without the tree: the entity with exactly that path, or
else all entities whose path ends with it, where of several entities with one path only the first
counts (`Analyzer.meantBy`). A text names what its splits mean (`Analyzer.named`), and resolving it
answers by that set alone (`resolve_eq_scan`): its only member, or that there is none, or the
printed paths of all of them in ascending order.

The bridge to the lookup is `mem_meantBy_iff`: the entities that a split means are those at the
positions that the tree finds for it.
-/

set_option autoImplicit false

namespace DocAtlas

open Attempt (Gives)
open SuffixTree (hits)

/-! ## Ascending texts -/

namespace Analyzer

/-- Leaving out repeats loses no text. -/
theorem mem_dropRepeats (texts : List String) (text : String) :
    text ∈ dropRepeats texts ↔ text ∈ texts := by
  fun_induction dropRepeats texts with
  | case1 a rest ih => simp [ih]
  | case2 a b rest hne ih => simp [ih]
  | case3 rest hshort => rfl

/-- Without repeats, ascending texts ascend strictly. -/
theorem pairwise_dropRepeats {texts : List String} (h : texts.Pairwise (· ≤ ·)) :
    (dropRepeats texts).Pairwise (· < ·) := by
  fun_induction dropRepeats texts with
  | case1 a rest ih => exact ih h.of_cons
  | case2 a b rest hne ih =>
    refine List.pairwise_cons.mpr ⟨?_, ih h.of_cons⟩
    intro text htext
    have hmem : text ∈ b :: rest := (mem_dropRepeats _ _).mp htext
    obtain ⟨hle, hrest⟩ := List.pairwise_cons.mp h
    -- what comes after `b` is not before it, and `a` is strictly before `b`
    have hb : b ≤ text := by
      rcases List.mem_cons.mp hmem with rfl | hmem
      · exact le_refl _
      · exact (List.pairwise_cons.mp hrest).1 text hmem
    exact lt_of_lt_of_le (lt_of_le_of_ne (hle b List.mem_cons_self) hne) hb
  | case3 rest hshort =>
    match rest, hshort with
    | [], _ => exact List.Pairwise.nil
    | [a], _ => exact List.pairwise_singleton _ a
    | a :: b :: rest, hshort => exact absurd rfl (hshort a b rest)

/-- Sorting puts texts in ascending order. -/
theorem pairwise_sortTexts (texts : List String) : (sortTexts texts).Pairwise (· ≤ ·) := by
  rw [SuffixTree.sortTexts_eq_insertionSort (List.Perm.refl texts)]
  exact List.pairwise_insertionSort (· ≤ ·) texts

/-- Sorting loses no text. -/
theorem mem_sortTexts (texts : List String) (text : String) :
    text ∈ sortTexts texts ↔ text ∈ texts := by
  rw [SuffixTree.sortTexts_eq_insertionSort (List.Perm.refl texts), List.mem_insertionSort]

/-! ## What a text names -/

/-- The first entity of each path, in the order of the entities. -/
def firstOfEachPath : List Entity → List Entity
  | [] => []
  | e :: rest => e :: (firstOfEachPath rest).filter fun other => other.path ≠ e.path

/-- What one way to split a text means: the entity with that path if there is one, and else every
entity whose path ends with it. -/
def meantBy (a : Analyzer) (suffix : Pathname) : List Entity :=
  match (firstOfEachPath a.entities).find? fun e => e.path = suffix with
  | some e => [e]
  | none => (firstOfEachPath a.entities).filter fun e => suffix <:+ e.path

/-- What a text names: all that the ways to split it mean. -/
def named (a : Analyzer) (namepath : String) : Set Entity :=
  {e | ∃ s ∈ Pathname.parseAlternatives namepath, e ∈ a.meantBy s}

/-- An entity is the first of its path exactly if it stands at the first position of that path. -/
theorem mem_firstOfEachPath_iff (entities : List Entity) (e : Entity) :
    e ∈ firstOfEachPath entities ↔ entities[(entities.map Entity.path).idxOf e.path]? = some e := by
  induction entities with
  | nil => simp [firstOfEachPath]
  | cons head rest ih =>
    rw [firstOfEachPath, List.mem_cons, List.mem_filter, ih, List.map_cons]
    -- entities behind one with the same path do not count, and others keep their places
    by_cases h : head.path = e.path
    · rw [List.idxOf_cons_eq _ h]
      simp [h, eq_comm]
    · rw [List.idxOf_cons_ne _ h]
      have hne : e ≠ head := fun heq => h (heq ▸ rfl)
      simp [hne, Ne.symm h]

/-- It is the entity that the address of its path leads to. -/
theorem mem_firstOfEachPath_iff_addressable (a : Analyzer) (e : Entity) :
    e ∈ firstOfEachPath a.entities
      ↔ ∃ position, (e.path, position) ∈ a.addressable ∧ a.entities[position]? = some e := by
  rw [mem_firstOfEachPath_iff]
  constructor
  · intro hget
    refine ⟨_, mem_addresses.mpr ⟨?_, rfl⟩, hget⟩
    exact List.mem_map_of_mem (List.mem_of_getElem? hget)
  · rintro ⟨position, hmem, hget⟩
    rw [(mem_addresses.mp hmem).2]
    exact hget

/-! ## Splits and positions -/

/-- No position is found twice for one split. -/
theorem nodup_hits {a : Analyzer} (h : a.Addressed) (s : Pathname) :
    (hits a.addressable s).Nodup := by
  rw [hits]
  split
  · exact List.nodup_singleton _
  · exact (h.distinct.of_map _).filter _

/-- What a split means are the entities at the positions that are found for it. -/
theorem mem_meantBy_iff {a : Analyzer} (h : a.Addressed) {s : Pathname} {e : Entity} :
    e ∈ a.meantBy s ↔ ∃ position, (e.path, position) ∈ hits a.addressable s
      ∧ a.entities[position]? = some e := by
  rw [meantBy]
  split
  · -- an entity with exactly this path is the only one that is meant
    rename_i exact hexact
    have hpath : exact.path = s := of_decide_eq_true (List.find?_some hexact :)
    obtain ⟨position, hmem, hget⟩ :=
      (mem_firstOfEachPath_iff_addressable a exact).mp (List.mem_of_find?_eq_some hexact)
    have hhits := h.hits_of_mem hmem
    simp only [hpath] at hhits
    rw [hhits, List.mem_singleton]
    constructor
    · rintro rfl
      exact ⟨position, by rw [hpath]; exact List.mem_cons_self, hget⟩
    · rintro ⟨other, hother, hget'⟩
      obtain ⟨-, rfl⟩ := Prod.mk.inj (List.mem_singleton.mp hother)
      rw [hget] at hget'
      exact (Option.some.inj hget').symm
  · rename_i hnone
    -- without such an entity, all that end like this are found
    have hexact : s ∉ a.addressable.map Prod.fst := by
      intro hmem
      obtain ⟨⟨path, position⟩, hpair, rfl⟩ := List.mem_map.mp hmem
      obtain ⟨exact, hget, rfl⟩ := entity_of_mem_addressable hpair
      have hfirst := (mem_firstOfEachPath_iff_addressable a exact).mpr ⟨position, hpair, hget⟩
      exact List.find?_eq_none.mp hnone exact hfirst (decide_eq_true rfl)
    rw [List.mem_filter, mem_firstOfEachPath_iff_addressable, decide_eq_true_eq]
    constructor
    · rintro ⟨⟨position, hmem, hget⟩, hsuffix⟩
      exact ⟨position, SuffixTree.mem_hits_of_suffix hexact hmem hsuffix, hget⟩
    · rintro ⟨position, hhit, hget⟩
      obtain ⟨hmem, hsuffix⟩ := SuffixTree.mem_hits hhit
      exact ⟨⟨position, hmem, hget⟩, hsuffix⟩

section

variable {a : Analyzer} {namepath : String}

/-- Every position that is found for a split holds an entity that the text names. -/
theorem exists_named_of_hit (h : a.Addressed) {s : Pathname}
    (hs : s ∈ Pathname.parseAlternatives namepath) {pair : Pathname × Nat}
    (hpair : pair ∈ hits a.addressable s) :
    ∃ e ∈ a.named namepath, a.entities[pair.2]? = some e ∧ e.path = pair.1 := by
  obtain ⟨e, hget, hpath⟩ := entity_of_mem_addressable (SuffixTree.mem_hits hpair).1
  refine ⟨e, ⟨s, hs, (mem_meantBy_iff h).mpr ⟨pair.2, ?_, hget⟩⟩, hget, hpath⟩
  rw [hpath]
  exact hpair

/-- Whatever a text names is found for one of its splits. -/
theorem exists_hit_of_named (h : a.Addressed) {e : Entity} (he : e ∈ a.named namepath) :
    ∃ s ∈ Pathname.parseAlternatives namepath, ∃ position,
      (e.path, position) ∈ hits a.addressable s ∧ a.entities[position]? = some e := by
  obtain ⟨s, hs, hmeant⟩ := he
  exact ⟨s, hs, (mem_meantBy_iff h).mp hmeant⟩

/-- **A text names one entity exactly if it is resolved to that.** -/
theorem resolve_eq_ok_iff_named (h : a.Addressed) {e : Entity} :
    a.resolve namepath = .ok e ↔ a.named namepath = {e} := by
  rw [resolve_eq_ok_iff h, Set.eq_singleton_iff_unique_mem]
  constructor
  · rintro ⟨position, hget, ⟨s, hs, hsome⟩, hall⟩
    -- whatever is named stands at the one position
    have honly : ∀ other ∈ a.named namepath, other = e := by
      intro other hother
      obtain ⟨s', hs', position', hhit, hget'⟩ := exists_hit_of_named h hother
      rcases hall s' hs' with hnone | ⟨path, hone⟩
      · rw [hnone] at hhit
        exact absurd hhit List.not_mem_nil
      · rw [hone] at hhit
        obtain ⟨-, rfl⟩ := Prod.mk.inj (List.mem_singleton.mp hhit)
        rw [hget] at hget'
        exact (Option.some.inj hget').symm
    obtain ⟨pair, hpair⟩ := List.exists_mem_of_ne_nil _ hsome
    obtain ⟨found, hnamed, -, -⟩ := exists_named_of_hit h hs hpair
    rw [honly found hnamed] at hnamed
    exact ⟨hnamed, honly⟩
  · rintro ⟨he, honly⟩
    obtain ⟨s, hs, position, hhit, hget⟩ := exists_hit_of_named h he
    refine ⟨position, hget, ⟨s, hs, List.ne_nil_of_mem hhit⟩, ?_⟩
    intro s' hs'
    -- all that is found for a split is the entity at its address, and nothing is found twice
    have hsame : ∀ pair ∈ hits a.addressable s', pair = (e.path, position) := by
      intro pair hpair
      obtain ⟨other, hnamed, -, hpath⟩ := exists_named_of_hit h hs' hpair
      rw [honly other hnamed] at hpath
      refine List.inj_on_of_nodup_map h.distinct (SuffixTree.mem_hits hpair).1
        (SuffixTree.mem_hits hhit).1 ?_
      exact hpath.symm
    rcases List.eq_nil_or_concat (hits a.addressable s') with hnil | ⟨front, last, hlast⟩
    · exact Or.inl hnil
    · have hmem : last ∈ hits a.addressable s' := by
        rw [hlast, List.concat_eq_append]
        exact List.mem_append_right _ List.mem_cons_self
      refine Or.inr ⟨e.path, eq_singleton_of_nodup (nodup_hits h s') ?_ hsame⟩
      rw [← hsame last hmem]
      exact hmem

/-- What the splits of a text lead to is what the text names: each entity stands at a position that
was found alone, or its printed path was found along with others. -/
theorem exists_matches_named (h : a.Addressed) (namepath : String) :
    ∃ m, a.matchesFrom {} (Pathname.parseAlternatives namepath) = .ok m
      ∧ (∀ position ∈ m.found, ∃ e ∈ a.named namepath, a.entities[position]? = some e)
      ∧ (∀ text ∈ m.candidates, ∃ e ∈ a.named namepath, e.path.text = text)
      ∧ ∀ e ∈ a.named namepath,
          e.path.text ∈ m.candidates ∨ ∃ position ∈ m.found, a.entities[position]? = some e := by
  obtain ⟨m, hmatches, -, hfound, hcandidates⟩ :=
    exists_matchesFrom h {} (Pathname.parseAlternatives namepath)
  simp only [List.not_mem_nil, false_or] at hfound hcandidates
  refine ⟨m, hmatches, ?_, ?_, ?_⟩
  · intro position hmem
    obtain ⟨s, hs, path, hone⟩ := (hfound position).mp hmem
    obtain ⟨e, hnamed, hget, -⟩ := exists_named_of_hit h hs (hone ▸ List.mem_cons_self)
    exact ⟨e, hnamed, hget⟩
  · intro text hmem
    obtain ⟨s, hs, -, pair, hpair, htext⟩ := (hcandidates text).mp hmem
    obtain ⟨e, hnamed, -, hpath⟩ := exists_named_of_hit h hs hpair
    exact ⟨e, hnamed, by rw [hpath, htext]⟩
  · intro e he
    obtain ⟨s, hs, position, hhit, hget⟩ := exists_hit_of_named h he
    -- a single match is a position, and each of several is a candidate
    match hhits : hits a.addressable s with
    | [] =>
      rw [hhits] at hhit
      exact absurd hhit List.not_mem_nil
    | [pair] =>
      rw [hhits] at hhit
      rw [← List.mem_singleton.mp hhit] at hhits
      exact Or.inr ⟨position, (hfound position).mpr ⟨s, hs, e.path, hhits⟩, hget⟩
    | first :: second :: rest =>
      exact Or.inl ((hcandidates _).mpr ⟨s, hs, by rw [hhits]; simp, _, hhit, rfl⟩)

/-- The printed paths of all matches, each once, in ascending order. -/
def Matches.printed (m : Matches) (a : Analyzer) : List String :=
  dropRepeats (sortTexts (m.candidates
    ++ m.found.filterMap fun position => a.entities[position]?.map (·.path.text)))

/-- Whatever does not name exactly one entity fails for that reason, and an ambiguous text is told
all it names. -/
theorem resolve_cases (h : a.Addressed) (namepath : String) :
    (a.resolve namepath = .error (.notFound namepath) ∧ a.named namepath = ∅)
      ∨ (∃ e, a.resolve namepath = .ok e)
      ∨ ∃ candidates, a.resolve namepath = .error (.ambiguous namepath candidates)
          ∧ (a.named namepath).Nonempty
          ∧ candidates.Pairwise (· < ·)
          ∧ ∀ text, text ∈ candidates ↔ ∃ e ∈ a.named namepath, e.path.text = text := by
  obtain ⟨m, hmatches, hfound, hcandidates, hnamed⟩ := exists_matches_named h namepath
  have hprinted : ∀ text, text ∈ m.printed a ↔ ∃ e ∈ a.named namepath, e.path.text = text := by
    intro text
    rw [Matches.printed, mem_dropRepeats, mem_sortTexts, List.mem_append, List.mem_filterMap]
    constructor
    · rintro (hmem | ⟨position, hmem, hpath⟩)
      · exact hcandidates text hmem
      · obtain ⟨e, he, hget⟩ := hfound position hmem
        rw [hget] at hpath
        exact ⟨e, he, Option.some.inj hpath⟩
    · rintro ⟨e, he, rfl⟩
      rcases hnamed e he with hmem | ⟨position, hmem, hget⟩
      · exact Or.inl hmem
      · exact Or.inr ⟨position, hmem, by rw [hget]; rfl⟩
  have hascending : (m.printed a).Pairwise (· < ·) := pairwise_dropRepeats (pairwise_sortTexts _)
  rw [resolve, hmatches]
  obtain ⟨found, candidates⟩ := m
  -- no position, one, and several, with or without candidates
  rcases found with _ | ⟨position, _ | ⟨other, found⟩⟩
  · cases candidates with
    | nil =>
      refine Or.inl ⟨rfl, Set.eq_empty_iff_forall_notMem.mpr ?_⟩
      intro e he
      rcases hnamed e he with hmem | ⟨position, hmem, -⟩
      · exact List.not_mem_nil hmem
      · exact List.not_mem_nil hmem
    | cons text rest =>
      obtain ⟨e, he, -⟩ := hcandidates text List.mem_cons_self
      exact Or.inr (Or.inr ⟨_, rfl, ⟨e, he⟩, hascending, hprinted⟩)
  · obtain ⟨e, he, hget⟩ := hfound position List.mem_cons_self
    cases candidates with
    | nil =>
      refine Or.inr (Or.inl ⟨e, ?_⟩)
      simp only [hget]
    | cons text rest => exact Or.inr (Or.inr ⟨_, rfl, ⟨e, he⟩, hascending, hprinted⟩)
  · obtain ⟨e, he, -⟩ := hfound position List.mem_cons_self
    exact Or.inr (Or.inr ⟨_, rfl, ⟨e, he⟩, hascending, hprinted⟩)

/-- The printed path of whatever a text names ends with the text. -/
theorem text_of_named (h : a.Addressed) {e : Entity} (he : e ∈ a.named namepath) :
    ∃ front, e.path.text = front ++ namepath := by
  obtain ⟨s, hs, position, hhit, -⟩ := exists_hit_of_named h he
  obtain ⟨front, hfront⟩ : s <:+ e.path := (SuffixTree.mem_hits hhit).2
  refine ⟨Pathname.text front, ?_⟩
  rw [← hfront, Pathname.text_append, Pathname.text_of_mem_parseAlternatives hs]

end

/-- **Resolving a text scans all ways to split it.** The answer is an entity exactly if the text
names that one and no other, and `notFound` exactly if it names nothing. Otherwise it is ambiguous,
and the candidates are the printed paths of all that it names, each once, in ascending order. Every
path concerned ends with the text. -/
theorem resolve_eq_scan {p : Project} {config : Config} {a : Analyzer}
    (h : Gives (ofProject p config) a) (namepath : String) :
    (∀ e, a.resolve namepath = .ok e ↔ a.named namepath = {e})
      ∧ (∀ suffix, a.resolve namepath = .error (.notFound suffix)
        ↔ suffix = namepath ∧ a.named namepath = ∅)
      ∧ (a.named namepath ≠ ∅ → (∀ e, a.named namepath ≠ {e}) →
          ∃ candidates, a.resolve namepath = .error (.ambiguous namepath candidates)
            ∧ candidates.Pairwise (· < ·)
            ∧ ∀ text, text ∈ candidates ↔ ∃ e ∈ a.named namepath, e.path.text = text)
      ∧ ∀ e ∈ a.named namepath, ∃ front, e.path.text = front ++ namepath := by
  obtain ⟨-, haddressed⟩ := convert_of_ofProject h
  refine ⟨fun _ => resolve_eq_ok_iff_named haddressed, ?_, ?_, fun _ => text_of_named haddressed⟩
  · intro suffix
    rcases resolve_cases haddressed namepath with ⟨heq, hnone⟩ | ⟨e, heq⟩
      | ⟨candidates, heq, hsome, -, -⟩
    · simp [heq, hnone, eq_comm]
    · simp [heq, (resolve_eq_ok_iff_named haddressed).mp heq]
    · simp [heq, hsome.ne_empty]
  · intro hsome hmany
    rcases resolve_cases haddressed namepath with ⟨-, hnone⟩ | ⟨e, heq⟩
      | ⟨candidates, heq, -, hascending, htexts⟩
    · exact absurd hnone hsome
    · exact absurd ((resolve_eq_ok_iff_named haddressed).mp heq) (hmany e)
    · exact ⟨candidates, heq, hascending, htexts⟩

/-- Two variables `c` with one printed path: one in the file `a.b.ts`, and one in the namespace `b`
of the file `a.ts`. -/
def sameTextTwice : Project where
  children := [
    ⟨{ name := "c", sources := [⟨"a.b.ts", 1⟩] }, [],
      .member .variableDecl ⟨.intrinsic "number", []⟩⟩,
    ⟨{ name := "b", sources := [⟨"a.ts", 1⟩] },
      [⟨{ name := "c", sources := [⟨"a.ts", 2⟩] }, [],
        .member .variableDecl ⟨.intrinsic "number", []⟩⟩],
      .scope .namespaceDecl⟩]

/-- Each way to split `a.b.c` finds one of the variables, and the text that the two share is the
only candidate. -/
theorem resolve_scan_sameTextTwice :
    ∃ a, Gives (ofProject sameTextTwice {}) a
      ∧ a.entities.map Entity.path = [["./", "a.b.", "c"], ["./", "a.", "b.", "c"]]
      ∧ a.resolve "a.b.c" = .error (.ambiguous "a.b.c" ["./a.b.c"]) := by
  obtain ⟨a, ha, hresults⟩ := Attempt.exists_gives_of_map (x := ofProject sameTextTwice {})
    (fun a => (a.entities.map Entity.path,
      (Pathname.parseAlternatives "a.b.c").map fun s => (a.meantBy s).map Entity.path))
    (b := ([["./", "a.b.", "c"], ["./", "a.", "b.", "c"]],
      [[["./", "a.", "b.", "c"]], [["./", "a.b.", "c"]]]))
    (by decide +kernel)
  obtain ⟨hpaths, hmeant⟩ := Prod.mk.inj hresults
  have hsplits : Pathname.parseAlternatives "a.b.c" = [["a.", "b.", "c"], ["a.b.", "c"]] := by
    decide +kernel
  simp only [hsplits, List.map_cons, List.map_nil, List.cons.injEq, and_true,
    List.map_eq_singleton_iff] at hmeant
  obtain ⟨⟨e₁, hmeant₁, hpath₁⟩, e₂, hmeant₂, hpath₂⟩ := hmeant
  have hnamed : a.named "a.b.c" = {e₁, e₂} := by
    ext e
    simp [named, hsplits, hmeant₁, hmeant₂]
  obtain ⟨-, -, hmany, -⟩ := resolve_eq_scan ha "a.b.c"
  have hsome : a.named "a.b.c" ≠ ∅ := by
    rw [hnamed]
    exact (Set.insert_nonempty e₁ {e₂}).ne_empty
  -- the two have different paths, so they are two entities
  have hne : ∀ e, a.named "a.b.c" ≠ {e} := by
    intro e he
    rw [hnamed, Set.eq_singleton_iff_unique_mem] at he
    have hsame : e₁ = e₂ := (he.2 e₁ (Or.inl rfl)).trans (he.2 e₂ (Or.inr rfl)).symm
    rw [hsame, hpath₂] at hpath₁
    exact absurd hpath₁ (by decide)
  obtain ⟨candidates, heq, hascending, htexts⟩ := hmany hsome hne
  simp only [hnamed, Set.mem_insert_iff, Set.mem_singleton_iff, exists_eq_or_imp, exists_eq_left,
    hpath₁, hpath₂] at htexts
  refine ⟨a, ha, hpaths, ?_⟩
  have hmem : "./a.b.c" ∈ candidates := (htexts "./a.b.c").mpr (Or.inl rfl)
  rw [heq, eq_singleton_of_nodup (hascending.imp fun hlt => ne_of_lt hlt) hmem]
  intro text htext
  rcases (htexts text).mp htext with rfl | rfl
  · rfl
  · rfl

end Analyzer

end DocAtlas
